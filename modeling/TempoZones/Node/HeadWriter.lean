import TempoZones.Node.RoleController

/-!
# At most one writer of the canonical head

`Controlled` says which generations may still act on the canonical head: only the newest one, none
while no generation is installed, and none that was aborted while the controller goes on. Tasks only
become less busy by themselves (`TaskStep.frame`), and a generation starts after the one before was
joined. `Informed` keeps what the controller has read and that it was true then.
-/

namespace TempoZones.RoleControl

open Lib List Function Bool Option

variable {K W : Type} [DecidableEq K] [DecidableEq W] {g : ℕ}

def DesiredRole.anchor : DesiredRole → Option ℕ
  | .leader _ anchor => some anchor
  | _ => none

theorem DesiredRole.anchor_eq_some {desired : DesiredRole} {anchor : ℕ}
    (h : desired.anchor = some anchor) : ∃ epoch, desired = .leader epoch anchor := by
  cases desired with
  | leader epoch a =>
    cases h
    exact ⟨epoch, rfl⟩
  | follower epoch => cases h
  | fenced => cases h

def AfterStop.anchor : AfterStop → Option ℕ
  | .start desired => desired.anchor
  | .decide => none

namespace Phase

def stopping : Phase W → Bool
  | .awaitingEngine _ => true
  | .stoppingBroadcaster _ _ => true
  | .joining _ _ => true
  | _ => false

def clean : Phase W → Bool
  | .stoppingBroadcaster failed _ => !failed
  | .joining failed _ => !failed
  | _ => false

def vacant : Phase W → Bool
  | .starting _ => true
  | .headRead _ _ _ => true
  | _ => false

def unproven : Phase W → Bool
  | .stoppingBroadcaster failed _ => failed
  | .joining failed _ => failed
  | .exited => true
  | _ => false

def reading : Phase W → Bool
  | .checkpointRead _ => true
  | .roleRead _ => true
  | .decided _ => true
  | .headRead _ _ _ => true
  | _ => false

def promised : Phase W → Option ℕ
  | .awaitingEngine next => next.anchor
  | .stoppingBroadcaster _ next => next.anchor
  | .joining _ next => next.anchor
  | .starting desired => desired.anchor
  | .headRead _ anchor _ => some anchor
  | _ => none

end Phase

namespace RoleNode

variable {me : K} {s s' : RoleNode K W}

/-! ## Tasks -/

theorem update_generations (s : RoleNode K W) (g : ℕ) (f : Generation W → Generation W) (i : ℕ) :
    (s.update g f).generations i = if i = g then f (s.generations g) else s.generations i :=
  update_apply s.generations g (f (s.generations g)) i

/-- What steps outside of the controller can change: no task becomes busy, aborts or takes back its
return, and the canonical chain moves only while some writer is busy. -/
structure Frame (s s' : RoleNode K W) : Prop where
  generationId : s'.generationId = s.generationId
  current : s'.current = s.current
  sinks : s'.sinks = s.sinks
  phase : s'.phase = s.phase
  role : ∀ i, (s'.generations i).role = (s.generations i).role
  startHeader : ∀ i, (s'.generations i).startHeader = (s.generations i).startHeader
  busy : ∀ i, (s'.generations i).writer.busy = true → (s.generations i).writer.busy = true
  aborted : ∀ i r, (s'.generations i).writer = .aborted r →
    ∃ r', (s.generations i).writer = .aborted r'
  returned : ∀ i, (s.generations i).writer = .returned → (s'.generations i).writer = .returned
  canonical : s'.canonical ≠ s.canonical → ∃ i, (s.generations i).writer.busy = true

theorem Frame.of_same (hid : s'.generationId = s.generationId) (hcurrent : s'.current = s.current)
    (hsinks : s'.sinks = s.sinks) (hphase : s'.phase = s.phase)
    (hgenerations : s'.generations = s.generations) (hcanonical : s'.canonical = s.canonical) :
    Frame s s' where
  generationId := hid
  current := hcurrent
  sinks := hsinks
  phase := hphase
  role := fun i => by rw [hgenerations]
  startHeader := fun i => by rw [hgenerations]
  busy := fun i h => by rwa [hgenerations] at h
  aborted := fun i r h => ⟨r, by rwa [hgenerations] at h⟩
  returned := fun i h => by rwa [hgenerations]
  canonical := fun h => absurd hcanonical h

theorem Frame.of_update {t : RoleNode K W} (g : ℕ) {f : Generation W → Generation W}
    (hf : ∀ generation, (f generation).role = generation.role ∧
      (f generation).startHeader = generation.startHeader ∧
      (f generation).writer = generation.writer)
    (ht : t.generations = (s.update g f).generations) (hid : t.generationId = s.generationId)
    (hcurrent : t.current = s.current) (hsinks : t.sinks = s.sinks) (hphase : t.phase = s.phase)
    (hcanonical : t.canonical = s.canonical) : Frame s t := by
  have hsame : ∀ i, (t.generations i).role = (s.generations i).role ∧
      (t.generations i).startHeader = (s.generations i).startHeader ∧
      (t.generations i).writer = (s.generations i).writer := by
    intro i
    rw [ht, update_generations]
    split
    · next heq =>
      rw [heq]
      exact hf _
    · exact ⟨rfl, rfl, rfl⟩
  exact {
    generationId := hid
    current := hcurrent
    sinks := hsinks
    phase := hphase
    role := fun i => (hsame i).1
    startHeader := fun i => (hsame i).2.1
    busy := fun i h => by rwa [(hsame i).2.2] at h
    aborted := fun i r h => ⟨r, by rwa [(hsame i).2.2] at h⟩
    returned := fun i h => by rw [(hsame i).2.2, h]
    canonical := fun h => absurd hcanonical h }

@[simp] theorem resolve_generations (s : RoleNode K W) (applied : Bool) (r : EngineRequest W) :
    (s.resolve applied r).generations = s.generations := by
  cases r with
  | newPayload => rfl
  | forkchoice chain => cases applied <;> rfl

theorem resolve_rest (s : RoleNode K W) (applied : Bool) (r : EngineRequest W) :
    (s.resolve applied r).generationId = s.generationId ∧
      (s.resolve applied r).current = s.current ∧ (s.resolve applied r).sinks = s.sinks ∧
      (s.resolve applied r).phase = s.phase ∧ (s.resolve applied r).held = s.held := by
  cases r with
  | newPayload => exact ⟨rfl, rfl, rfl, rfl, rfl⟩
  | forkchoice chain => cases applied <;> exact ⟨rfl, rfl, rfl, rfl, rfl⟩

theorem Frame.of_writer {t : RoleNode K W} {writer : Writer W}
    (hbusy : (s.generations g).writer.busy = true)
    (habort : ∀ r, writer = .aborted r → ∃ r', (s.generations g).writer = .aborted r')
    (hgenerations : t.generations = s.generations) (hid : t.generationId = s.generationId)
    (hcurrent : t.current = s.current) (hsinks : t.sinks = s.sinks) (hphase : t.phase = s.phase) :
    Frame s (t.setWriter g writer) := by
  have hlookup : ∀ i, ((t.setWriter g writer).generations i) =
      if i = g then { s.generations g with writer := writer } else s.generations i := by
    intro i
    rw [setWriter, update_generations, hgenerations]
  exact {
    generationId := hid
    current := hcurrent
    sinks := hsinks
    phase := hphase
    role := fun i => by
      rw [hlookup]
      split
      · next heq => rw [heq]
      · rfl
    startHeader := fun i => by
      rw [hlookup]
      split
      · next heq => rw [heq]
      · rfl
    busy := fun i h => by
      rw [hlookup] at h
      split at h
      · next heq =>
        rw [heq]
        exact hbusy
      · exact h
    aborted := fun i r h => by
      rw [hlookup] at h
      split at h
      · next heq =>
        rw [heq]
        exact habort r h
      · exact ⟨r, h⟩
    returned := fun i h => by
      rw [hlookup]
      split
      · next heq =>
        rw [heq] at h
        rw [h] at hbusy
        cases hbusy
      · exact h
    canonical := fun _ => ⟨g, hbusy⟩ }

theorem TaskStep.frame (hstep : TaskStep s s') : Frame s s' := by
  cases hstep with
  | publish record
  | recordApplied anchor
  | installRecovery directive
  | lookUp hsink
  | drop hheld => exact .of_same rfl rfl rfl rfl rfl rfl
  | issue request hidle
  | writerReturns hidle
  | writerPanics hidle =>
    exact .of_writer (by rw [hidle]; rfl) (fun _ h => nomatch h) rfl rfl rfl rfl rfl
  | @respond g request applied hwaiting =>
    obtain ⟨hid, hcurrent, hsinks, hphase, -⟩ := s.resolve_rest applied request
    exact .of_writer (by rw [hwaiting]; rfl) (fun _ h => nomatch h) (s.resolve_generations _ _) hid
      hcurrent hsinks hphase
  | @applyOrphan g request applied horphan =>
    obtain ⟨hid, hcurrent, hsinks, hphase, -⟩ := s.resolve_rest applied request
    exact .of_writer (by rw [horphan]; rfl) (fun _ _ => ⟨_, horphan⟩) (s.resolve_generations _ _)
      hid hcurrent hsinks hphase
  | broadcasterEnds g =>
    exact .of_update (f := fun generation => { generation with broadcasting := false }) g
      (fun _ => ⟨rfl, rfl, rfl⟩) rfl rfl rfl rfl rfl rfl
  | otherEnds g =>
    exact .of_update (f := fun generation => { generation with others := generation.others - 1 }) g
      (fun _ => ⟨rfl, rfl, rfl⟩) rfl rfl rfl rfl rfl rfl
  | @handOver kind g hheld =>
    exact .of_update (f := fun generation =>
      { generation with received := generation.received ++ [kind] }) g (fun _ => ⟨rfl, rfl, rfl⟩)
      rfl rfl rfl rfl rfl rfl

/-! ## Which generations are busy -/

/-- Only the newest generation can be busy, and only while it is installed or after the controller has
exited; sinks belong to the installed generation. -/
structure Controlled (s : RoleNode K W) : Prop where
  newest : ∀ i, (s.generations i).writer.busy = true → i = s.generationId
  currentId : ∀ g, s.current = some g → g = s.generationId
  quiet : s.current = none → s.phase ≠ .exited → ∀ i, (s.generations i).writer.busy = false
  noAbort : s.phase ≠ .exited → ∀ i r, (s.generations i).writer ≠ .aborted r
  acknowledged : s.phase.clean = true → ∀ g, s.current = some g →
    (s.generations g).role.isLeader = true → (s.generations g).writer = .returned
  starting : s.phase.vacant = true → s.current = none
  sinksId : ∀ kind g, s.sinks kind = some g →
    g = s.generationId ∧ (s.current = some g ∨ s.phase = .exited)
  stopping : s.phase.stopping = true → ∀ kind, s.sinks kind = none

theorem Controlled.boot (schedule : P2p.LeadershipScheduleState K W) (canonical : List (ZoneHead W)) :
    Controlled (RoleNode.boot schedule canonical) where
  newest := fun _ h => absurd h false_ne_true
  currentId := fun _ h => nomatch h
  quiet := fun _ _ _ => rfl
  noAbort := fun _ _ _ h => nomatch h
  acknowledged := fun h => absurd h false_ne_true
  starting := fun h => absurd h false_ne_true
  sinksId := fun _ _ h => nomatch h
  stopping := fun h => absurd h false_ne_true

section

variable (h : Controlled s)
include h

theorem Controlled.task (hf : Frame s s') : Controlled s' where
  newest := fun i hbusy => by
    rw [hf.generationId]
    exact h.newest i (hf.busy i hbusy)
  currentId := fun g hg => by
    rw [hf.current] at hg
    rw [hf.generationId]
    exact h.currentId g hg
  quiet := fun hnone hlive i => by
    rw [hf.current] at hnone
    rw [hf.phase] at hlive
    have hquiet := h.quiet hnone hlive i
    cases hbusy : (s'.generations i).writer.busy with
    | false => rfl
    | true =>
      rw [hf.busy i hbusy] at hquiet
      cases hquiet
  noAbort := fun hlive i r habort => by
    rw [hf.phase] at hlive
    obtain ⟨r', habort'⟩ := hf.aborted i r habort
    exact h.noAbort hlive i r' habort'
  acknowledged := fun hclean g hg hrole => by
    rw [hf.phase] at hclean
    rw [hf.current] at hg
    rw [hf.role] at hrole
    exact hf.returned g (h.acknowledged hclean g hg hrole)
  starting := fun hvacant => by
    rw [hf.phase] at hvacant
    rw [hf.current]
    exact h.starting hvacant
  sinksId := fun kind g hsink => by
    rw [hf.sinks] at hsink
    rw [hf.generationId, hf.current, hf.phase]
    exact h.sinksId kind g hsink
  stopping := fun hstopping kind => by
    rw [hf.phase] at hstopping
    rw [hf.sinks]
    exact h.stopping hstopping kind

theorem Controlled.withPhase (hlive : s.phase ≠ .exited) {p : Phase W}
    (hstopping : p.stopping = true → s.phase.stopping = true)
    (hclean : p.clean = true → ∀ g, s.current = some g → (s.generations g).role.isLeader = true → (s.generations g).writer = .returned)
    (hvacant : p.vacant = true → s.current = none) : Controlled { s with phase := p } :=
  { h with
    quiet := fun hnone _ => h.quiet hnone hlive
    noAbort := fun _ => h.noAbort hlive
    acknowledged := hclean
    starting := hvacant
    sinksId := fun kind g hsink => by
      obtain ⟨hid, hcurrent⟩ := h.sinksId kind g hsink
      exact ⟨hid, .inl (hcurrent.resolve_right hlive)⟩
    stopping := fun hp => h.stopping (hstopping hp) }

theorem Controlled.move (hlive : s.phase ≠ .exited) {p : Phase W} (hstopping : p.stopping = false)
    (hclean : p.clean = false) (hvacant : p.vacant = false) : Controlled { s with phase := p } :=
  h.withPhase hlive (fun hp => absurd (hstopping.symm.trans hp) false_ne_true)
    (fun hp => absurd (hclean.symm.trans hp) false_ne_true)
    (fun hp => absurd (hvacant.symm.trans hp) false_ne_true)

theorem Controlled.beginStop (hlive : s.phase ≠ .exited) (hcurrent : s.current = some g)
    (next : AfterStop) : Controlled (s.beginStop g next) := by
  have hlookup : ∀ i, ((s.beginStop g next).generations i).writer = (s.generations i).writer ∧
      ((s.beginStop g next).generations i).role = (s.generations i).role := by
    intro i
    have hgeneration : (s.beginStop g next).generations i =
        if i = g then { s.generations g with cancelled := true } else s.generations i :=
      update_generations s g (fun generation => { generation with cancelled := true }) i
    rw [hgeneration]
    split
    · next heq =>
      rw [heq]
      exact ⟨rfl, rfl⟩
    · exact ⟨rfl, rfl⟩
  exact { h with
    newest := fun i hbusy => h.newest i (by rwa [(hlookup i).1] at hbusy)
    quiet := fun hnone => absurd (hcurrent.symm.trans hnone) (some_ne_none g)
    noAbort := fun _ i r habort => h.noAbort hlive i r (by rwa [(hlookup i).1] at habort)
    acknowledged := fun hclean g' hg' hrole => by
      -- the engine of a leader is awaited first
      obtain rfl : g = g' := some.inj (hcurrent.symm.trans hg')
      rw [(hlookup g).2] at hrole
      simp only [RoleNode.beginStop, hrole, if_true] at hclean
      cases hclean
    starting := fun hvacant => by
      simp only [RoleNode.beginStop] at hvacant
      split at hvacant <;> cases hvacant
    sinksId := fun _ _ hsink => nomatch hsink
    stopping := fun _ _ => rfl }

end

theorem not_busy_of_over {writer : Writer W} (hover : writer.ended = true)
    (habort : ∀ r, writer ≠ .aborted r) : writer.busy = false := by
  cases writer with
  | absent
  | returned
  | panicked => rfl
  | running r => cases hover
  | aborted r => exact absurd rfl (habort r)

section

variable (h : Controlled s)
include h

theorem Controlled.finishStop {failed : Bool} {next : AfterStop}
    (hphase : s.phase = .joining failed next) (hcurrent : s.current = some g)
    (hjoined : (s.generations g).joined = true) : Controlled (s.finishStop failed next) := by
  have hlive : s.phase ≠ .exited := by
    rw [hphase]
    exact fun hexited => nomatch hexited
  have hsinks : ∀ kind, s.sinks kind = none := h.stopping (by rw [hphase]; rfl)
  have hquiet : ∀ i, (s.generations i).writer.busy = false := by
    intro i
    cases hbusy : (s.generations i).writer.busy with
    | false => rfl
    | true =>
      have hlast : i = g := (h.newest i hbusy).trans (h.currentId g hcurrent).symm
      subst hlast
      simp only [Generation.joined, and_eq_true] at hjoined
      rw [not_busy_of_over hjoined.1.1 (h.noAbort hlive i)] at hbusy
      cases hbusy
  have hphase' : ∀ {p : Phase W}, (s.finishStop failed next).phase = p →
      p.clean = false ∧ p.stopping = false := by
    rintro p rfl
    unfold RoleNode.finishStop
    cases failed <;> cases next <;> exact ⟨rfl, rfl⟩
  exact { h with
    currentId := fun _ hg' => nomatch hg'
    quiet := fun _ _ => hquiet
    noAbort := fun _ => h.noAbort hlive
    acknowledged := fun hclean => absurd ((hphase' rfl).1.symm.trans hclean) false_ne_true
    starting := fun _ => rfl
    sinksId := fun kind g' hsink => absurd ((hsinks kind).symm.trans hsink) (by simp)
    stopping := fun hstopping => absurd ((hphase' rfl).2.symm.trans hstopping) false_ne_true }

theorem Controlled.exit (g : ℕ) : Controlled (s.exit g) := by
  have hbusy : ∀ i, ((s.exit g).generations i).writer.busy = true →
      (s.generations i).writer.busy = true := by
    intro i hi
    rw [show (s.exit g).generations i = (s.update g Generation.abortAll).generations i from rfl,
      update_generations] at hi
    split at hi
    · next heq =>
      rw [heq]
      revert hi
      show (s.generations g).writer.abort.busy = true → _
      cases (s.generations g).writer <;> exact fun hi => by first | exact hi | rfl
    · exact hi
  exact {
    newest := fun i hi => h.newest i (hbusy i hi)
    currentId := fun _ hg' => nomatch hg'
    quiet := fun _ hlive => absurd rfl hlive
    noAbort := fun hlive => absurd rfl hlive
    acknowledged := fun hclean => absurd hclean false_ne_true
    starting := fun _ => rfl
    sinksId := fun kind g' hsink => ⟨(h.sinksId kind g' hsink).1, .inr rfl⟩
    stopping := fun hstopping => absurd hstopping false_ne_true }

theorem Controlled.started (hvacant : s.phase.vacant = true) (role : DesiredRole)
    (header : Option (ZoneHead W)) : Controlled (s.started role header) := by
  have hlive : s.phase ≠ .exited := by
    intro hexited
    rw [hexited] at hvacant
    cases hvacant
  have hquiet := h.quiet (h.starting hvacant) hlive
  have hlookup : ∀ i, (s.started role header).generations i =
      if i = s.generationId + 1 then .spawn role header else s.generations i := fun i =>
    update_apply s.generations (s.generationId + 1) (.spawn role header) i
  exact {
    newest := fun i hbusy => by
      rw [hlookup] at hbusy
      split at hbusy
      · next heq => exact heq
      · rw [hquiet i] at hbusy
        cases hbusy
    currentId := fun _ hg => (some.inj hg).symm
    quiet := fun hnone => nomatch hnone
    noAbort := fun _ i r habort => by
      rw [hlookup] at habort
      split at habort
      · cases role <;> cases habort
      · exact h.noAbort hlive i r habort
    acknowledged := fun hclean => absurd hclean false_ne_true
    starting := fun hp => absurd hp false_ne_true
    sinksId := fun kind g hsink => by
      have hid : g = s.generationId + 1 := by
        simp only [RoleNode.started] at hsink
        split at hsink
        · cases hsink
        · cases kind with
          | sync => exact (some.inj hsink).symm
          | transactions => exact (some.inj hsink).symm
          | backfill =>
            simp only [installed] at hsink
            split at hsink
            · cases hsink
            · exact (some.inj hsink).symm
      rw [hid]
      exact ⟨rfl, .inl rfl⟩
    stopping := fun hp => absurd hp false_ne_true }

theorem Controlled.startFailed (hvacant : s.phase.vacant = true) : Controlled s.startFailed := by
  have hlive : s.phase ≠ .exited := by
    intro hexited
    rw [hexited] at hvacant
    cases hvacant
  have hquiet := h.quiet (h.starting hvacant) hlive
  exact {
    newest := fun i hbusy => absurd ((hquiet i).symm.trans hbusy) false_ne_true
    currentId := fun _ hg => nomatch hg
    quiet := fun _ _ => hquiet
    noAbort := fun _ => h.noAbort hlive
    acknowledged := fun hclean => absurd hclean false_ne_true
    starting := fun _ => rfl
    sinksId := fun _ _ hsink => nomatch hsink
    stopping := fun hp => absurd hp false_ne_true }

theorem Controlled.control (hstep : ControlStep me s s') : Controlled s' := by
  have hlive : ∀ {p : Phase W}, s.phase = p → p ≠ .exited → s.phase ≠ .exited := by
    rintro p rfl hp
    exact hp
  cases hstep with
  | readCheckpoint hphase hanchor
  | checkpointFails hphase
  | readRole canLead hphase
  | promote hphase hother
  | noBarrier hphase hnone
  | keep hphase hsame
  | wake hphase
  | closedFenced hphase hcurrent => exact h.move (hlive hphase (by simp)) rfl rfl rfl
  | replace hphase hother hcurrent
  | taskEnded hphase hcurrent hended => exact h.beginStop (hlive hphase (by simp)) hcurrent _
  | install hphase hcurrent =>
    exact h.withPhase (hlive hphase (by simp)) (fun hp => nomatch hp) (fun hp => nomatch hp)
      fun _ => hcurrent
  | engineAcknowledged hphase hcurrent hreturned =>
    refine h.withPhase (hlive hphase (by simp)) (fun _ => by rw [hphase]; rfl) ?_
      (fun hp => nomatch hp)
    intro _ g hg _
    rw [hcurrent] at hg
    cases hg
    exact hreturned
  | engineLost hphase hcurrent hpanicked
  | engineTimeout hphase hcurrent hhangs
  | shutdownRefused hphase hcurrent hgone =>
    exact h.withPhase (hlive hphase (by simp)) (fun _ => by rw [hphase]; rfl)
      (fun hp => nomatch hp) (fun hp => nomatch hp)
  | shutdownSent hphase hcurrent halive =>
    refine h.withPhase (hlive hphase (by simp)) (fun _ => by rw [hphase]; rfl) ?_
      (fun hp => nomatch hp)
    intro hclean
    exact h.acknowledged (by rw [hphase]; exact hclean)
  | joined hphase hcurrent hjoined => exact h.finishStop hphase hcurrent hjoined
  | joinTimeout hphase hcurrent => exact h.exit _
  | closed hphase hcurrent => exact h.exit _
  | startFenced hphase
  | startFollower hphase
  | startLeader hphase => exact h.started (by rw [hphase]; rfl) _ _
  | readHead hphase hheader =>
    exact h.withPhase (hlive hphase (by simp)) (fun hp => nomatch hp) (fun hp => nomatch hp)
      fun _ => h.starting (by rw [hphase]; rfl)
  | headFails hphase
  | prerequisiteFails hphase => exact h.startFailed (by rw [hphase]; rfl)

theorem Controlled.step (hstep : Step me s s') : Controlled s' := by
  cases hstep with
  | task hstep => exact h.task hstep.frame
  | control hstep => exact h.control hstep

theorem Controlled.run (hrun : Run me s s') : Controlled s' := by
  induction hrun with
  | refl => exact h
  | tail _ hstep ih => exact ih.step hstep

end

theorem Controlled.of_reached (h : Reached me s) : Controlled s := by
  obtain ⟨schedule, canonical, hrun⟩ := h
  exact (Controlled.boot schedule canonical).run hrun

/-! ## Failed teardowns -/

theorem ControlStep.generationId_cases (hstep : ControlStep me s s') :
    s'.generationId = s.generationId ∨
      s'.generationId = s.generationId + 1 ∧ s.phase.vacant = true := by
  cases hstep with
  | startFenced hphase
  | startFollower hphase
  | headFails hphase
  | prerequisiteFails hphase
  | startLeader hphase => exact .inr ⟨rfl, by rw [hphase]; rfl⟩
  | _ => exact .inl rfl

theorem ControlStep.unproven (hstep : ControlStep me s s') (h : s.phase.unproven = true) :
    s'.phase.unproven = true ∧ s'.generationId = s.generationId := by
  have hnot : ∀ {p : Phase W}, s.phase = p → p.unproven = true := by
    rintro p rfl
    exact h
  cases hstep with
  | readCheckpoint hphase hanchor
  | checkpointFails hphase
  | readRole canLead hphase
  | promote hphase hother
  | noBarrier hphase hnone
  | keep hphase hsame
  | replace hphase hother hcurrent
  | install hphase hcurrent
  | engineAcknowledged hphase hcurrent hreturned
  | engineLost hphase hcurrent hpanicked
  | engineTimeout hphase hcurrent hhangs
  | startFenced hphase
  | startFollower hphase
  | readHead hphase hheader
  | headFails hphase
  | prerequisiteFails hphase
  | startLeader hphase
  | wake hphase
  | taskEnded hphase hcurrent hended
  | closed hphase hcurrent
  | closedFenced hphase hcurrent => cases hnot hphase
  | @shutdownSent failed next g hphase hcurrent halive
  | @joined failed next g hphase hcurrent hjoined =>
    have hfailed : failed = true := hnot hphase
    subst hfailed
    exact ⟨rfl, rfl⟩
  | shutdownRefused hphase hcurrent hgone => exact ⟨rfl, rfl⟩
  | joinTimeout hphase hcurrent => exact ⟨rfl, rfl⟩

theorem unproven_run (hrun : Run me s s') (h : s.phase.unproven = true) :
    s'.phase.unproven = true ∧ s'.generationId = s.generationId := by
  induction hrun with
  | refl => exact ⟨h, rfl⟩
  | tail _ hstep ih =>
    cases hstep with
    | task hstep =>
      have hframe := hstep.frame
      rw [hframe.phase, hframe.generationId]
      exact ih
    | control hstep =>
      obtain ⟨hunproven, hid⟩ := hstep.unproven ih.1
      exact ⟨hunproven, hid.trans ih.2⟩

theorem generationId_mono (hrun : Run me s s') : s.generationId ≤ s'.generationId := by
  induction hrun with
  | refl => exact le_rfl
  | tail _ hstep ih =>
    cases hstep with
    | task hstep =>
      rw [hstep.frame.generationId]
      exact ih
    | control hstep => rcases hstep.generationId_cases with hid | ⟨hid, -⟩ <;> omega

/-! ## What the controller has read -/

def Leads (me : K) (s : RoleNode K W) (anchor : ℕ) : Prop :=
  ∃ record, s.schedule.leaderFor anchor = some record ∧ record.leader = me

/-- The checkpoint of some earlier state was read, and no generation was started since. -/
def SawCheckpoint (me : K) (s : RoleNode K W) (anchor : ℕ) : Prop :=
  ∃ s₁, Reached me s₁ ∧ Run me s₁ s ∧ s₁.nextAnchor = some anchor ∧
    s₁.generationId = s.generationId

def SawLeader (me : K) (s : RoleNode K W) (anchor : ℕ) : Prop :=
  ∃ s₂, SawCheckpoint me s₂ anchor ∧ Run me s₂ s ∧ Leads me s₂ anchor ∧
    s₂.generationId = s.generationId

def SawReady (me : K) (s : RoleNode K W) (anchor : ℕ) : Prop :=
  ∃ s₃, SawLeader me s₃ anchor ∧ Run me s₃ s ∧
    promotionReady s₃.schedule s₃.canonical me anchor = true ∧ s₃.generationId = s.generationId

theorem SawCheckpoint.step {anchor : ℕ} (h : SawCheckpoint me s anchor) (hstep : Step me s s')
    (hid : s'.generationId = s.generationId) : SawCheckpoint me s' anchor := by
  obtain ⟨s₁, hreached, hrun, hanchor, hsame⟩ := h
  exact ⟨s₁, hreached, hrun.tail hstep, hanchor, hsame.trans hid.symm⟩

theorem SawLeader.step {anchor : ℕ} (h : SawLeader me s anchor) (hstep : Step me s s')
    (hid : s'.generationId = s.generationId) : SawLeader me s' anchor := by
  obtain ⟨s₂, hcheckpoint, hrun, hleads, hsame⟩ := h
  exact ⟨s₂, hcheckpoint, hrun.tail hstep, hleads, hsame.trans hid.symm⟩

theorem SawReady.step {anchor : ℕ} (h : SawReady me s anchor) (hstep : Step me s s')
    (hid : s'.generationId = s.generationId) : SawReady me s' anchor := by
  obtain ⟨s₃, hleader, hrun, hready, hsame⟩ := h
  exact ⟨s₃, hleader, hrun.tail hstep, hready, hsame.trans hid.symm⟩

/-- What the controller knows in each phase. -/
structure Informed (me : K) (s : RoleNode K W) : Prop where
  checkpoint : ∀ anchor, s.phase = .checkpointRead anchor → SawCheckpoint me s anchor
  role : ∀ epoch anchor, s.phase = .roleRead (.leader epoch anchor) → SawLeader me s anchor
  decided : ∀ epoch anchor, s.phase = .decided (.leader epoch anchor) →
    s.runs (.leader epoch anchor) = true ∨ SawReady me s anchor
  promised : ∀ anchor, s.phase.promised = some anchor → SawReady me s anchor
  header : ∀ epoch anchor header, s.phase = .headRead epoch anchor header →
    s.canonical.getLast? = some header

theorem Informed.boot (schedule : P2p.LeadershipScheduleState K W) (canonical : List (ZoneHead W)) :
    Informed me (RoleNode.boot schedule canonical) :=
  ⟨(fun _ h => nomatch h), (fun _ _ h => nomatch h), (fun _ _ h => nomatch h),
    (fun _ h => nomatch h), (fun _ _ _ h => nomatch h)⟩

theorem runs_of_frame (hf : Frame s s') (desired : DesiredRole) : s'.runs desired = s.runs desired := by
  rw [runs, runs, hf.current]
  cases s.current with
  | none => rfl
  | some g => simp only [any_some, hf.role]

theorem Informed.task (h : Informed me s) (hc : Controlled s) (hstep : TaskStep s s') :
    Informed me s' := by
  have hf := hstep.frame
  have hid := hf.generationId
  have hwhole : Step me s s' := .task hstep
  constructor
  · intro anchor hphase
    rw [hf.phase] at hphase
    exact (h.checkpoint anchor hphase).step hwhole hid
  · intro epoch anchor hphase
    rw [hf.phase] at hphase
    exact (h.role epoch anchor hphase).step hwhole hid
  · intro epoch anchor hphase
    rw [hf.phase] at hphase
    rw [runs_of_frame hf]
    exact (h.decided epoch anchor hphase).imp id fun hready => hready.step hwhole hid
  · intro anchor hpromised
    rw [hf.phase] at hpromised
    exact (h.promised anchor hpromised).step hwhole hid
  · intro epoch anchor header hphase
    rw [hf.phase] at hphase
    -- no writer is busy while a leader is being started, so the head does not move
    have hsame : s'.canonical = s.canonical := by
      by_contra hmoved
      obtain ⟨i, hbusy⟩ := hf.canonical hmoved
      have hnone := hc.starting (by rw [hphase]; rfl)
      rw [hc.quiet hnone (by rw [hphase]; simp) i] at hbusy
      cases hbusy
    rw [hsame]
    exact h.header epoch anchor header hphase

theorem Informed.of_promise {p : Phase W} (hphase : s.phase = p) (hplain : p.reading = false)
    (hpromised : ∀ anchor, p.promised = some anchor → SawReady me s anchor) : Informed me s := by
  subst hphase
  refine ⟨fun anchor h => ?_, fun epoch anchor h => ?_, fun epoch anchor h => ?_, hpromised,
    fun epoch anchor header h => ?_⟩
  all_goals
    rw [h] at hplain
    cases hplain

theorem Informed.of_plain {p : Phase W} (hphase : s.phase = p)
    (hplain : p = .deciding ∨ p = .waiting ∨ p = .exited) : Informed me s := by
  refine .of_promise hphase ?_ ?_
  · rcases hplain with rfl | rfl | rfl <;> rfl
  · rcases hplain with rfl | rfl | rfl <;> exact fun _ h => nomatch h

theorem desiredRole_leader {schedule : P2p.LeadershipScheduleState K W} {canLead : Bool}
    {a epoch anchor : ℕ} (h : desiredRole schedule me canLead a = .leader epoch anchor) :
    a = anchor ∧ ∃ record, schedule.leaderFor a = some record ∧ record.leader = me := by
  unfold desiredRole at h
  split at h
  · cases h
  · next record hrecord =>
    split at h
    · next hme =>
      split at h
      · cases h
        exact ⟨rfl, record, hrecord, hme⟩
      · cases h
    · cases h

theorem beginStop_reading (s : RoleNode K W) (g : ℕ) (next : AfterStop) :
    (s.beginStop g next).phase.reading = false := by
  unfold beginStop
  simp only
  split <;> rfl

theorem beginStop_promised (s : RoleNode K W) (g : ℕ) (next : AfterStop) :
    (s.beginStop g next).phase.promised = next.anchor := by
  unfold beginStop
  simp only
  split <;> rfl

theorem Informed.control (h : Informed me s) (hreached : Reached me s)
    (hstep : ControlStep me s s') : Informed me s' := by
  have hwhole : Step me s s' := .control hstep
  cases hstep with
  | @readCheckpoint anchor hphase hanchor =>
    refine ⟨fun a ha => ?_, (fun _ _ h => nomatch h), (fun _ _ h => nomatch h),
      (fun _ h => nomatch h), (fun _ _ _ h => nomatch h)⟩
    cases ha
    exact ⟨s, hreached, .single hwhole, hanchor, rfl⟩
  | checkpointFails hphase =>
    exact ⟨(fun _ h => nomatch h), (fun _ _ h => nomatch h), (fun _ _ h => nomatch h),
      (fun _ h => nomatch h), (fun _ _ _ h => nomatch h)⟩
  | @readRole a canLead hphase =>
    refine ⟨(fun _ h => nomatch h), fun epoch anchor hrole => ?_, (fun _ _ h => nomatch h),
      (fun _ h => nomatch h), (fun _ _ _ h => nomatch h)⟩
    obtain ⟨rfl, hleads⟩ := desiredRole_leader (Phase.roleRead.inj hrole)
    exact ⟨s, h.checkpoint a hphase, .single hwhole, hleads, rfl⟩
  | @promote epoch anchor hphase hother =>
    refine ⟨(fun _ h => nomatch h), (fun _ _ h => nomatch h), fun e a hdecided => ?_,
      (fun _ h => nomatch h), (fun _ _ _ h => nomatch h)⟩
    have hdesired := Phase.decided.inj hdecided
    split at hdesired
    · next hready =>
      cases hdesired
      exact .inr ⟨s, h.role epoch anchor hphase, .single hwhole, hready, rfl⟩
    · cases hdesired
  | @noBarrier desired hphase hnone =>
    refine ⟨(fun _ h => nomatch h), (fun _ _ h => nomatch h), fun e a hdecided => ?_,
      (fun _ h => nomatch h), (fun _ _ _ h => nomatch h)⟩
    have hdesired : desired = .leader e a := Phase.decided.inj hdecided
    subst hdesired
    exact .inl (hnone.resolve_left (by simp [DesiredRole.isLeader]))
  | keep hphase hsame
  | startFenced hphase
  | startFollower hphase
  | headFails hphase
  | prerequisiteFails hphase
  | startLeader hphase => exact .of_plain rfl (.inr (.inl rfl))
  | @replace desired g hphase hother hcurrent =>
    refine .of_promise rfl (beginStop_reading _ _ _) fun anchor hpromised => ?_
    rw [beginStop_promised] at hpromised
    obtain ⟨epoch, rfl⟩ := DesiredRole.anchor_eq_some hpromised
    rcases h.decided epoch anchor hphase with hruns | hready
    · rw [hother] at hruns
      cases hruns
    · exact hready.step hwhole rfl
  | @install desired hphase hcurrent =>
    refine .of_promise rfl rfl fun anchor hpromised => ?_
    obtain ⟨epoch, rfl⟩ := DesiredRole.anchor_eq_some hpromised
    rcases h.decided epoch anchor hphase with hruns | hready
    · rw [runs, hcurrent] at hruns
      cases hruns
    · exact hready.step hwhole rfl
  | engineAcknowledged hphase hcurrent hreturned
  | engineLost hphase hcurrent hpanicked
  | engineTimeout hphase hcurrent hhangs
  | shutdownSent hphase hcurrent halive
  | shutdownRefused hphase hcurrent hgone =>
    exact .of_promise rfl rfl fun anchor hp =>
      (h.promised anchor (by rw [hphase]; exact hp)).step hwhole rfl
  | @joined failed next g hphase hcurrent hjoined =>
    refine .of_promise rfl ?_ fun anchor hp => ?_
    · unfold finishStop
      cases failed <;> cases next <;> rfl
    · cases failed with
      | true => cases hp
      | false =>
        cases next with
        | decide => cases hp
        | start desired =>
          refine (h.promised anchor ?_).step hwhole rfl
          rw [hphase]
          exact hp
  | joinTimeout hphase hcurrent
  | closed hphase hcurrent
  | closedFenced hphase hcurrent => exact .of_plain rfl (.inr (.inr rfl))
  | @readHead epoch anchor header hphase hheader =>
    refine ⟨(fun _ h => nomatch h), (fun _ _ h => nomatch h), (fun _ _ h => nomatch h),
      fun a hp => ?_, fun e a head hhead => ?_⟩
    · cases hp
      exact (h.promised anchor (by rw [hphase]; rfl)).step hwhole rfl
    · cases hhead
      exact hheader
  | wake hphase => exact .of_plain rfl (.inl rfl)
  | taskEnded hphase hcurrent hended =>
    refine .of_promise rfl (beginStop_reading _ _ _) fun anchor hp => ?_
    rw [beginStop_promised] at hp
    cases hp

theorem Informed.of_reached (h : Reached me s) : Informed me s := by
  obtain ⟨schedule, canonical, hrun⟩ := h
  induction hrun with
  | refl => exact .boot schedule canonical
  | tail hrun hstep ih =>
    have hreached : Reached me _ := ⟨schedule, canonical, hrun⟩
    cases hstep with
    | task hstep => exact ih.task (.of_reached hreached) hstep
    | control hstep => exact ih.control hreached hstep

/-! ## Events -/

/-- The sink of a generation was looked up for an event while that generation was the newest one, and
installed unless the controller had exited. -/
def LookedUp (me : K) (s : RoleNode K W) (kind : EventKind) (g : ℕ) : Prop :=
  ∃ s₁, Reached me s₁ ∧ Run me s₁ s ∧ s₁.sinks kind = some g ∧ g = s₁.generationId ∧
    (s₁.current = some g ∨ s₁.phase = .exited)

theorem LookedUp.step {kind : EventKind} (h : LookedUp me s kind g) (hstep : Step me s s') :
    LookedUp me s' kind g := by
  obtain ⟨s₁, hreached, hrun, hsink⟩ := h
  exact ⟨s₁, hreached, hrun.tail hstep, hsink⟩

/-- Events on their way and events handed over were looked up for their generation. -/
structure Routed (me : K) (s : RoleNode K W) : Prop where
  held : ∀ kind g, (kind, g) ∈ s.held → LookedUp me s kind g
  received : ∀ kind g, kind ∈ (s.generations g).received → LookedUp me s kind g

theorem Routed.of_le (h : Routed me s) (hstep : Step me s s')
    (hheld : ∀ event, event ∈ s'.held → event ∈ s.held)
    (hreceived : ∀ kind g, kind ∈ (s'.generations g).received →
      kind ∈ (s.generations g).received) : Routed me s' where
  held := fun kind g hmem => (h.held kind g (hheld _ hmem)).step hstep
  received := fun kind g hmem => (h.received kind g (hreceived kind g hmem)).step hstep

theorem update_received {t : RoleNode K W} {f : Generation W → Generation W}
    (hf : ∀ generation, (f generation).received = generation.received)
    (ht : t.generations = s.generations) :
    ∀ kind i, kind ∈ ((t.update g f).generations i).received →
      kind ∈ (s.generations i).received := by
  intro kind i hmem
  rw [update_generations, ht] at hmem
  split at hmem
  · next heq =>
    rw [hf] at hmem
    rw [heq]
    exact hmem
  · exact hmem

theorem mem_handedOver {kind k : EventKind} {i : ℕ}
    (hmem : k ∈ ((s.update g fun generation => { generation with received := generation.received ++ [kind] }).generations i).received) :
    k ∈ (s.generations i).received ∨ k = kind ∧ i = g := by
  rw [update_generations] at hmem
  split at hmem
  · next heq =>
    subst heq
    rcases mem_append.mp hmem with hold | hnew
    · exact .inl hold
    · exact .inr ⟨mem_singleton.mp hnew, rfl⟩
  · exact .inl hmem

theorem Routed.task (h : Routed me s) (hreached : Reached me s) (hstep : TaskStep s s') :
    Routed me s' := by
  have hwhole : Step me s s' := .task hstep
  cases hstep with
  | publish record
  | recordApplied anchor
  | installRecovery directive => exact h.of_le hwhole (fun _ hm => hm) fun _ _ hm => hm
  | issue request hidle
  | writerReturns hidle
  | writerPanics hidle
  | broadcasterEnds g => exact h.of_le hwhole (fun _ hm => hm) (update_received (fun _ => rfl) rfl)
  | @respond g request applied hwaiting
  | @applyOrphan g request applied horphan =>
    obtain ⟨-, -, -, -, hheld⟩ := s.resolve_rest applied request
    exact h.of_le hwhole (fun _ hm => hheld ▸ hm)
      (update_received (fun _ => rfl) (s.resolve_generations _ _))
  | otherEnds g => exact h.of_le hwhole (fun _ hm => hm) (update_received (fun _ => rfl) rfl)
  | @lookUp kind g hsink =>
    refine ⟨fun k i hmem => ?_, fun k i hmem => (h.received k i hmem).step hwhole⟩
    rcases mem_append.mp hmem with hold | hnew
    · exact (h.held k i hold).step hwhole
    · cases mem_singleton.mp hnew
      obtain ⟨hid, hcurrent⟩ := (Controlled.of_reached hreached).sinksId kind g hsink
      exact ⟨s, hreached, .single hwhole, hsink, hid, hcurrent⟩
  | @handOver kind g hheld =>
    refine ⟨fun k i hmem => (h.held k i (mem_of_mem_erase hmem)).step hwhole,
      fun k i hmem => ?_⟩
    rcases mem_handedOver hmem with hold | ⟨rfl, rfl⟩
    · exact (h.received k i hold).step hwhole
    · exact (h.held k i hheld).step hwhole
  | drop hheld => exact h.of_le hwhole (fun _ hm => mem_of_mem_erase hm) fun _ _ hm => hm

theorem started_received (role : DesiredRole) (header : Option (ZoneHead W)) :
    ∀ kind i, kind ∈ ((s.started role header).generations i).received →
      kind ∈ (s.generations i).received := by
  intro kind i hmem
  simp only [started, update_apply] at hmem
  split at hmem
  · cases hmem
  · exact hmem

theorem beginStop_received (g : ℕ) (next : AfterStop) :
    ∀ kind i, kind ∈ ((s.beginStop g next).generations i).received →
      kind ∈ (s.generations i).received :=
  update_received (f := fun generation => { generation with cancelled := true }) (fun _ => rfl) rfl

theorem Routed.control (h : Routed me s) (hstep : ControlStep me s s') : Routed me s' := by
  have hwhole : Step me s s' := .control hstep
  cases hstep with
  | replace hphase hother hcurrent
  | taskEnded hphase hcurrent hended =>
    exact h.of_le hwhole (fun _ hm => hm) (beginStop_received _ _)
  | joinTimeout hphase hcurrent
  | closed hphase hcurrent =>
    exact h.of_le hwhole (fun _ hm => hm) (update_received (fun _ => rfl) rfl)
  | startFenced hphase
  | startFollower hphase
  | startLeader hphase => exact h.of_le hwhole (fun _ hm => hm) (started_received _ _)
  | _ => exact h.of_le hwhole (fun _ hm => hm) fun _ _ hm => hm

theorem Routed.of_reached (h : Reached me s) : Routed me s := by
  obtain ⟨schedule, canonical, hrun⟩ := h
  induction hrun with
  | refl => exact ⟨fun _ _ hmem => (not_mem_nil hmem).elim, fun _ _ hmem => nomatch hmem⟩
  | tail hrun hstep ih =>
    cases hstep with
    | task hstep => exact ih.task ⟨schedule, canonical, hrun⟩ hstep
    | control hstep => exact ih.control hstep

/-! ## One writer -/

theorem ControlStep.canonical_eq (hstep : ControlStep me s s') : s'.canonical = s.canonical := by
  cases hstep <;> rfl

theorem ControlStep.current_cases (hstep : ControlStep me s s') :
    s'.current = s.current ∨ s'.current = none ∨
      ∃ role header, s' = s.started role header ∧ s.phase.vacant = true ∧
        ∀ epoch anchor, role = .leader epoch anchor →
          ∃ head, header = some head ∧ s.phase = .headRead epoch anchor head := by
  cases hstep with
  | startFenced hphase =>
    exact .inr (.inr ⟨.fenced, none, rfl, by rw [hphase]; rfl, fun _ _ h => nomatch h⟩)
  | @startFollower epoch hphase =>
    exact .inr (.inr ⟨.follower epoch, none, rfl, by rw [hphase]; rfl, fun _ _ h => nomatch h⟩)
  | @startLeader epoch anchor header hphase =>
    refine .inr (.inr ⟨.leader epoch anchor, some header, rfl, by rw [hphase]; rfl, ?_⟩)
    intro e a hrole
    cases hrole
    exact ⟨header, rfl, hphase⟩
  | joined hphase hcurrent hjoined
  | joinTimeout hphase hcurrent
  | headFails hphase
  | prerequisiteFails hphase
  | closed hphase hcurrent => exact .inr (.inl rfl)
  | _ => exact .inl rfl

/-- The canonical chain moves only while the newest generation is busy, and that generation is
installed unless the controller has exited. -/
theorem Controlled.canonical_moves (h : Controlled s) (hstep : Step me s s')
    (hmoved : s'.canonical ≠ s.canonical) :
    (s.generations s.generationId).writer.busy = true ∧
      (s.current = some s.generationId ∨ s.phase = .exited) := by
  cases hstep with
  | control hstep => exact absurd hstep.canonical_eq hmoved
  | task hstep =>
    obtain ⟨i, hbusy⟩ := hstep.frame.canonical hmoved
    have hid := h.newest i hbusy
    rw [hid] at hbusy
    refine ⟨hbusy, ?_⟩
    cases hcurrent : s.current with
    | some g => exact .inl (by rw [h.currentId g hcurrent])
    | none =>
      refine .inr (by_contra fun hlive => ?_)
      rw [h.quiet hcurrent hlive] at hbusy
      cases hbusy

/-- A generation is started after all others have ended, and a leader starts from the canonical head
with a complete decision behind it. -/
theorem start_after_all (hc : Controlled s) (hi : Informed me s) (hstep : Step me s s')
    (hstarted : s'.current = some (s.generationId + 1)) :
    s'.canonical = s.canonical ∧ (∀ i, (s.generations i).writer.busy = false) ∧
      ∀ epoch anchor, (s'.generations (s.generationId + 1)).role = .leader epoch anchor →
        SawReady me s anchor ∧ ∃ head, s.canonical.getLast? = some head ∧
          (s'.generations (s.generationId + 1)).startHeader = some head := by
  have hfresh : s'.current ≠ s.current := by
    intro hsame
    rw [hstarted] at hsame
    have := hc.currentId _ hsame.symm
    omega
  cases hstep with
  | task hstep => exact absurd hstep.frame.current hfresh
  | control hstep =>
    rcases hstep.current_cases with hsame | hnone | ⟨role, header, rfl, hvacant, hleader⟩
    · exact absurd hsame hfresh
    · rw [hnone] at hstarted
      cases hstarted
    have hlive : s.phase ≠ .exited := by
      intro hexited
      rw [hexited] at hvacant
      cases hvacant
    refine ⟨rfl, hc.quiet (hc.starting hvacant) hlive, fun epoch anchor hrole => ?_⟩
    have hnew : (s.started role header).generations (s.generationId + 1) = .spawn role header :=
      update_self _ _ _
    rw [hnew] at hrole ⊢
    obtain ⟨head, rfl, hphase⟩ := hleader epoch anchor hrole
    exact ⟨hi.promised anchor (by rw [hphase]; rfl), head, hi.header epoch anchor head hphase, rfl⟩

/-- A controller that goes on after a teardown has joined all tasks of the generation, and the engine
of a leader has acknowledged its end. -/
theorem clean_teardown (hc : Controlled s) (hstep : Step me s s') (hcurrent : s.current = some g)
    (hnone : s'.current = none) (hlive : s'.phase ≠ .exited) :
    (s.generations g).joined = true ∧
      ((s.generations g).role.isLeader = true → (s.generations g).writer = .returned) := by
  have hgone : s'.current ≠ s.current := by
    rw [hnone, hcurrent]
    exact fun h => nomatch h
  have hoccupied : s.phase.vacant = true → False := by
    intro hvacant
    rw [hc.starting hvacant] at hcurrent
    cases hcurrent
  cases hstep with
  | task hstep => exact absurd hstep.frame.current hgone
  | control hstep =>
    cases hstep with
    | @joined failed next g' hphase hcurrent' hjoined =>
      obtain rfl : g' = g := some.inj (hcurrent'.symm.trans hcurrent)
      cases failed with
      | true => exact absurd rfl hlive
      | false => exact ⟨hjoined, hc.acknowledged (by rw [hphase]; rfl) g' hcurrent⟩
    | joinTimeout hphase hcurrent => exact absurd rfl hlive
    | closed hphase hcurrent => exact absurd rfl hlive
    | headFails hphase
    | prerequisiteFails hphase
    | startFenced hphase
    | startFollower hphase
    | startLeader hphase => exact (hoccupied (by rw [hphase]; rfl)).elim
    | _ => exact absurd rfl hgone

/-- In every reached state at most one of all writers ever started is busy. The canonical chain
moves only by the newest generation. A generation starts when no writer is busy; a leader starts
from the canonical head, after the controller has read a checkpoint, found itself to lead the next
anchor, and found an active recovery to be canonical. After a teardown that was not proven clean no
generation is started. Events are handed over only to a generation whose sink was installed when
they were looked up. -/
theorem single_head_writer (hreached : Reached me s) :
    (∀ i j, (s.generations i).writer.busy = true → (s.generations j).writer.busy = true → i = j) ∧
      (∀ s', Step me s s' → s'.canonical ≠ s.canonical →
        (s.generations s.generationId).writer.busy = true ∧
          (s.current = some s.generationId ∨ s.phase = .exited)) ∧
      (∀ s', Run me s s' → ∀ i < s.generationId, (s'.generations i).writer.busy = false) ∧
      (∀ s', Step me s s' → s'.current = some (s.generationId + 1) →
        s'.canonical = s.canonical ∧ (∀ i, (s.generations i).writer.busy = false) ∧
          ∀ epoch anchor, (s'.generations (s.generationId + 1)).role = .leader epoch anchor →
            SawReady me s anchor ∧ ∃ head, s.canonical.getLast? = some head ∧
              (s'.generations (s.generationId + 1)).startHeader = some head) ∧
      (∀ s', Run me s s' → s.phase.unproven = true → s'.generationId = s.generationId) ∧
      (∀ s' g, Step me s s' → s.current = some g → s'.current = none → s'.phase ≠ .exited →
        (s.generations g).joined = true ∧
          ((s.generations g).role.isLeader = true → (s.generations g).writer = .returned)) ∧
      ∀ kind g, kind ∈ (s.generations g).received → LookedUp me s kind g := by
  have hc := Controlled.of_reached hreached
  refine ⟨fun i j hi hj => (hc.newest i hi).trans (hc.newest j hj).symm,
    fun s' hstep => hc.canonical_moves hstep, ?_,
    fun s' hstep => start_after_all hc (.of_reached hreached) hstep,
    fun s' hrun hunproven => (unproven_run hrun hunproven).2,
    fun s' g hstep => clean_teardown hc hstep, (Routed.of_reached hreached).received⟩
  intro s' hrun i hi
  cases hbusy : (s'.generations i).writer.busy with
  | false => rfl
  | true =>
    -- a busy generation of the later state is its newest one
    have hnewest := (hc.run hrun).newest i hbusy
    have hmono := generationId_mono hrun
    omega

namespace Example

def schedule : P2p.LeadershipScheduleState ℕ ℕ :=
  (P2p.LeadershipScheduleState.uninitialized.publish ⟨1, 10, 0⟩).2

def handedOver : P2p.LeadershipScheduleState ℕ ℕ := (schedule.publish ⟨2, 20, 5⟩).2

/-- A node with one zone block at Tempo block 4, in a phase of its controller. -/
def nodeAt (schedule : P2p.LeadershipScheduleState ℕ ℕ) (phase : Phase ℕ) : RoleNode ℕ ℕ :=
  ⟨schedule, [⟨100, 4⟩], 0, fun _ => .none, none, fun _ => none, [], phase⟩

theorem headRead_reached : Reached 10 (nodeAt schedule (.headRead 1 5 ⟨100, 4⟩)) := by
  refine ⟨schedule, [⟨100, 4⟩], ?_⟩
  have hcheckpoint : Step 10 (nodeAt schedule .deciding) (nodeAt schedule (.checkpointRead 5)) :=
    .control (.readCheckpoint rfl (by decide))
  have hrole := (Relation.ReflTransGen.single hcheckpoint).tail (.control (.readRole true rfl))
  have hpromote := hrole.tail (.control (.promote rfl (by decide)))
  have hinstall := hpromote.tail (.control (.install rfl rfl))
  exact hinstall.tail (.control (.readHead rfl rfl))

theorem leader_starts_at_head :
    Reached 10 (nodeAt schedule (.headRead 1 5 ⟨100, 4⟩)) ∧
      ∃ head, (nodeAt schedule (.headRead 1 5 ⟨100, 4⟩)).canonical.getLast? = some head ∧
        (((nodeAt schedule (.headRead 1 5 ⟨100, 4⟩)).started (.leader 1 5)
          (some ⟨100, 4⟩)).generations 1).startHeader = some head :=
  ⟨headRead_reached, ((single_head_writer headRead_reached).2.2.2.1 _
    (.control (.startLeader rfl)) rfl).2.2 1 5 rfl |>.2⟩

/-- The schedule may change after the decision: a leader is started although another node leads the
next anchor by then. -/
theorem leader_started_after_handover :
    ∃ s s' : RoleNode ℕ ℕ, Reached 10 s ∧ Step 10 s s' ∧ s'.current = some (s.generationId + 1) ∧
      (s'.generations (s.generationId + 1)).role = .leader 1 5 ∧ s.nextAnchor = some 5 ∧
      ¬ Leads 10 s 5 := by
  refine ⟨nodeAt handedOver (.headRead 1 5 ⟨100, 4⟩), _, ?_, .control (.startLeader rfl), rfl, rfl,
    by decide, ?_⟩
  · obtain ⟨first, canonical, hrun⟩ := headRead_reached
    exact ⟨first, canonical, hrun.tail (.task (.publish ⟨2, 20, 5⟩))⟩
  · rintro ⟨record, hrecord, hleader⟩
    have hgoverns : handedOver.leaderFor 5 = some ⟨2, 20, 5⟩ := by decide
    cases hgoverns.symm.trans hrecord
    exact absurd hleader (by decide)

end Example

end RoleNode

end TempoZones.RoleControl
