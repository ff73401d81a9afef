import TempoZones.System.Nonces
import TempoZones.System.WithdrawalFifo
import TempoZones.Zone.ImportErrors

/-!
# Fallback recipients of bounced withdrawals

The bounce-backs that the zone has processed and those that follow in the portal's queue belong to
different requests (`Canonical`). So the recipient that a request named is still stored when the
zone processes the bounce-back of its withdrawal, and an import of the portal's entries does not
fail for the lack of one.
-/

namespace TempoZones

open Lib List

variable {W : Type} [EvmWord W] [DecidableEq W] {rest entries : List (QueueEntry W)}

/-! ## Imports -/

section Import

variable {zctx : ZoneCtx W} {z z' : Zone W}

/-- The bounce-backs processed so far, followed by those among `entries`, belong to different
requests. -/
def Canonical (z : Zone W) (entries : List (QueueEntry W)) : Prop :=
  ((bounceBacks (z.history.processed ++ entries)).map WithdrawalBounceBackDeposit.key).Sublist
    (requestKeys z.history.requests)

theorem EntryStep.canonical {e : QueueEntry W} (h : EntryStep z e z')
    (hcan : Canonical z (e :: rest)) : Canonical z' rest := by
  have hprocessed : z'.history.processed = z.history.processed ++ [e] := by cases h <;> rfl
  have hrequests : z'.history.requests = z.history.requests := by cases h <;> rfl
  rw [Canonical, hprocessed, hrequests, append_assoc]
  exact hcan

theorem Canonical.recipient {d : WithdrawalBounceBackDeposit} (hz : Allocated z)
    (hcan : Canonical z (.bounceBack d :: rest)) :
    ∃ i call, z.history.requests[i]? = some call ∧ d.key = (call.token, call.amount, i + 1) ∧
      z.outbox.fallbackRecipients d.fallbackNonce = call.zoneFallbackRecipient ∧
      call.zoneFallbackRecipient ≠ 0 := by
  have hsplit : bounceBacks (z.history.processed ++ .bounceBack d :: rest) =
      bounceBacks z.history.processed ++ d :: bounceBacks rest := bounceBacks_append _ _
  rw [Canonical, hsplit, map_append] at hcan
  have hmem : d.key ∈ requestKeys z.history.requests := hcan.subset (by simp)
  obtain ⟨i, call, hcall, hkey⟩ := mem_requestKeys.1 hmem
  have hnonce : d.fallbackNonce = i + 1 := congrArg (·.2.2) hkey
  refine ⟨i, call, hcall, hkey, ?_, hz.recipient_ne call (mem_of_getElem? hcall)⟩
  -- a nonce occurs once among the requests, so it is not among the processed ones
  have hfresh : d.fallbackNonce ∉ z.history.consumed := by
    have hnodup := (hcan.map (·.2.2)).nodup (requestKeys_nodup z.history.requests)
    rw [map_append, map_map, map_cons] at hnodup
    rw [hz.consumed_eq]
    intro hmem
    exact (nodup_append.1 hnodup).2.2 _ hmem _ mem_cons_self rfl
  rw [hz.stored, if_neg hfresh, hnonce, recipientOf, hcall]
  rfl

theorem processQueue_avoids {mints : ℕ → TryMint} {i : ℕ} {decryptions : List (DecryptionData W)}
    {hash : W} (hz : Allocated z) (hcan : Canonical z entries) :
    Avoids ZoneError.invalidFallbackRecipient
      (processQueue zctx mints i entries decryptions hash z) := by
  induction entries generalizing i decryptions hash z with
  | nil => exact .pure _
  | cons e rest ih =>
    cases e with
    | bounceBack d =>
      obtain ⟨-, call, -, -, hstored, hne⟩ := hcan.recipient hz
      refine (processWithdrawalBounceBack_avoids rfl (fun _ => hstored ▸ hne) _).bind
        fun z₁ hrun => ?_
      have hstep := processWithdrawalBounceBack_ok hrun
      exact ih (hstep.allocated hz) (hstep.canonical hcan)
    | deposit d =>
      cases decryptions with
      | nil => exact .error (by decide)
      | cons decryption decryptions =>
        refine (readEncryptionKey_avoids rfl _ _).bind fun key _ =>
          (processDeposit_avoids rfl _ _ _ _ _ _).bind fun z₁ hrun => ?_
        have hstep := processDeposit_ok hrun
        exact ih (hstep.allocated hz) (hstep.canonical hcan)

theorem advanceTempo_avoids {caller : Address} {call : AdvanceTempo W} {reply : AdvanceReply}
    (hportal : zctx.portal ≠ 0) (hz : Allocated z)
    (hdecode : decodeDeposits zctx.lib call.deposits = .ok entries) (hcan : Canonical z entries) :
    Avoids ZoneError.invalidFallbackRecipient (z.advanceTempo zctx caller call reply) := by
  refine advanceTempo_avoids_of rfl hdecode fun z₁ z₂ hcheckpoint htokens => ⟨?_, ?_⟩
  · obtain ⟨tempo, checkpointLog, -, rfl⟩ := finalizeCheckpoints_ok hcheckpoint
    obtain ⟨p, count, initialized, tokenLogs, -, -, -, rfl⟩ := advanceTokens_ok hportal htokens
    exact processQueue_avoids (hz.of_eq rfl rfl rfl rfl rfl rfl rfl) hcan
  · exact fun _ _ _ _ => ⟨nofun, nofun⟩

end Import

/-! ## Main result -/

section Main

variable {π : Platform W} {σ : Sys W} {zctx : ZoneCtx W}

/-- `entries` follow the entries that the zone has processed in the portal's queue, as it was at a
recorded block or is now. -/
def Sys.Continues (σ : Sys W) (entries : List (QueueEntry W)) : Prop :=
  ∃ s, (s = σ.l1 ∨ s ∈ σ.blocks) ∧ σ.zone.history.processed ++ entries <+: queueEntries s.logs

/-- The request behind a bounce-back: its token and amount, and its number as the nonce. -/
def Zone.RequestOf (z : Zone W) (d : WithdrawalBounceBackDeposit) (call : RequestWithdrawal W) :
    Prop :=
  ∃ i, z.history.requests[i]? = some call ∧ d.key = (call.token, call.amount, i + 1) ∧
    call.zoneFallbackRecipient ≠ 0

theorem Trace.keys_sublist (hc : CollisionFree W) (hsound : π.Sound) (h : Trace π σ) {s : L1 W}
    (hs : s = σ.l1 ∨ s ∈ σ.blocks) :
    ((bounceBacks (queueEntries s.logs)).map WithdrawalBounceBackDeposit.key).Sublist
      (requestKeys σ.zone.history.requests) := by
  rcases hs with rfl | hs
  · exact bounceBacks_sublist h.allocated (h.settles hc hsound).1 h.bounced.1
  · exact bounceBacks_sublist h.allocated ((h.settles hc hsound).2 s hs) (h.bounced.2 s hs)

theorem Trace.canonical (hc : CollisionFree W) (hsound : π.Sound) (h : Trace π σ)
    (hentries : σ.Continues entries) : Canonical σ.zone entries := by
  obtain ⟨s, hs, hpre⟩ := hentries
  have hbounces : bounceBacks (σ.zone.history.processed ++ entries) <+:
      bounceBacks (queueEntries s.logs) := hpre.filterMap _
  exact (hbounces.sublist.map _).trans (h.keys_sublist hc hsound hs)

theorem EntryPath.canonical {z z' : Zone W} (h : EntryPath entries z z')
    (hcan : Canonical z (entries ++ rest)) : Canonical z' rest := by
  induction h with
  | nil => exact hcan
  | cons step _ ih => exact ih (step.canonical hcan)

/-- **Fallback recipients.** In every reached state, also inside callbacks:

* user withdrawals carry nonces, one for each request and counted from one, and a nonce is consumed
  at most once, by a bounce-back that the zone processed;
* every bounce-back entry of the portal belongs to a request, no two share a nonce, and until its
  nonce is consumed the recipient that the request named is stored under it;
* the entries of a successful import continue the portal's queue, each bounce-back finds the
  recipient that its request named, and so an import of such entries does not fail with
  `invalidFallbackRecipient`. -/
theorem bounced_withdrawal_finds_recipient (hc : CollisionFree W) (hsound : π.Sound)
    (h : Visible π σ) :
    (σ.zone.userKeys = requestKeys σ.zone.history.requests ∧
      (requestKeys σ.zone.history.requests).map (·.2.2) =
        List.range' 1 σ.zone.history.requests.length ∧
      σ.zone.history.consumed = (bounceBacks σ.zone.history.processed).map (·.fallbackNonce) ∧
      σ.zone.history.consumed.Nodup) ∧
    (∀ s, s = σ.l1 ∨ s ∈ σ.blocks →
      ((bounceBacks (queueEntries s.logs)).map (·.fallbackNonce)).Nodup ∧
      ∀ d ∈ bounceBacks (queueEntries s.logs), ∃ call, σ.zone.RequestOf d call ∧
        (d.fallbackNonce ∉ σ.zone.history.consumed →
          σ.zone.outbox.fallbackRecipients d.fallbackNonce = call.zoneFallbackRecipient)) ∧
    (∀ zctx, ReadsFrom π σ.blocks zctx → ∀ caller call reply z' entries,
      σ.zone.advanceTempo zctx caller call reply = .ok z' →
      decodeDeposits zctx.lib call.deposits = .ok entries → σ.Continues entries) ∧
    ∀ entries, σ.Continues entries →
      (∀ tempo log tokens count initialized logs done d rest z',
        entries = done ++ .bounceBack d :: rest →
        EntryPath done
          ((σ.zone.withCheckpoint tempo log).withTokens tokens count initialized logs) z' →
        ∃ call, σ.zone.RequestOf d call ∧
          z'.outbox.fallbackRecipients d.fallbackNonce = call.zoneFallbackRecipient) ∧
      ∀ zctx, ReadsFrom π σ.blocks zctx → ∀ caller call reply,
        decodeDeposits zctx.lib call.deposits = .ok entries →
        σ.zone.advanceTempo zctx caller call reply ≠ .error .invalidFallbackRecipient := by
  have htrace := h.trace
  have hz := htrace.allocated
  refine ⟨⟨hz.keys_eq, requestKeys_nonces _, hz.consumed_eq, hz.nodup⟩, ?_, ?_, ?_⟩
  · intro s hs
    -- the portal's bounce-backs are a sublist of the requests, whose nonces are distinct
    have hkeys := htrace.keys_sublist hc hsound hs
    refine ⟨?_, ?_⟩
    · have hnodup := (hkeys.map (·.2.2)).nodup (requestKeys_nodup _)
      rwa [map_map] at hnodup
    · intro d hd
      obtain ⟨i, call, hcall, hkey⟩ :=
        mem_requestKeys.1 (hkeys.subset (mem_map_of_mem hd))
      have hne := hz.recipient_ne call (mem_of_getElem? hcall)
      refine ⟨call, ⟨i, hcall, hkey, hne⟩, ?_⟩
      intro hfresh
      have hnonce : d.fallbackNonce = i + 1 := congrArg (·.2.2) hkey
      rw [hz.stored, if_neg hfresh, hnonce, recipientOf, hcall]
      rfl
  · intro zctx hreads caller call reply z' entries hrun hdecode
    obtain ⟨decoded, hdecoded, hadvanced⟩ := advanceTempo_ok hreads.portal_ne_zero hrun
    obtain rfl : entries = decoded := Except.ok.inj (hdecode.symm.trans hdecoded)
    obtain ⟨s, hs, -, hprocessed, -⟩ :=
      hadvanced.sequence hc hreads htrace.chained.2 htrace.zoneChained
    rw [hadvanced.processed_eq] at hprocessed
    exact ⟨s, .inr (mem_of_getElem? hs), hprocessed ▸ prefix_rfl⟩
  · intro entries hentries
    have hcan := htrace.canonical hc hsound hentries
    refine ⟨?_, ?_⟩
    · intro tempo log tokens count initialized logs done d rest z' hsplit hpath
      subst hsplit
      have hstart : Allocated
          ((σ.zone.withCheckpoint tempo log).withTokens tokens count initialized logs) :=
        hz.of_eq rfl rfl rfl rfl rfl rfl rfl
      -- the entries in front of the bounce-back leave the requests alone
      have hrequests := hpath.keeps (f := fun z => z.history.requests)
        fun step => by cases step <;> rfl
      obtain ⟨i, call, hcall, hkey, hstored, hne⟩ :=
        (hpath.canonical hcan).recipient (hpath.allocated hstart)
      exact ⟨call, ⟨i, hrequests ▸ hcall, hkey, hne⟩, hstored⟩
    · intro zctx hreads caller call reply hdecode
      exact advanceTempo_avoids hreads.portal_ne_zero hz hdecode hcan

end Main

namespace Example

def bounced8 : L1 Sym :=
  (((settled8.setStatus .processing).withDequeued
    ⟨1, 1, Function.update settled8.portal.withdrawalQueue.slots 0 0⟩ sent).bounced sent).setStatus
    .notEntered

theorem bounces8 :
    settled8.processWithdrawals ctx8 1 [sent] 0 (fun _ => reverting) = .ok bounced8 := rfl

def sysBounced : Sys Sym := ⟨bounced8, sysBlock.blocks ++ [bounced8], zoneFinalized⟩

theorem sysBounced_reachable : Reachable platform sysBounced := by
  have hoff : (1 : Address) ≠ ctx8.ext.self := by decide
  have hcontrol : Control ctx8 settled8 bounced8 :=
    .process (.refl _) hoff (fun h => by cases h) bounces8
  exact .nextBlock (.transaction sysSettled_reachable ⟨rfl, rfl, ctx8_sound⟩ hcontrol
    deposited_balances)

theorem bounced8_entries : queueEntries bounced8.logs =
    [.deposit (depositArgs.queued 20 0), .bounceBack sent.bounceBack] := rfl

end Example

open Example

theorem bounced_withdrawal_finds_recipient_example :
    sysBounced.Continues [.bounceBack sent.bounceBack] ∧
      ∃ call, zoneFinalized.RequestOf sent.bounceBack call ∧
        zoneFinalized.outbox.fallbackRecipients 1 = call.zoneFallbackRecipient := by
  have h := bounced_withdrawal_finds_recipient Sym.collisionFree platform_sound
    (.between sysBounced_reachable)
  have hcontinues : sysBounced.Continues [.bounceBack sent.bounceBack] := by
    refine ⟨bounced8, .inl rfl, ?_⟩
    rw [bounced8_entries]
    exact prefix_rfl
  obtain ⟨call, hrequest, hstored⟩ := (h.2.1 _ (.inl rfl)).2 sent.bounceBack
    (mem_filterMap.2 ⟨.bounceBack sent.bounceBack, by
      show _ ∈ queueEntries bounced8.logs
      rw [bounced8_entries]
      exact mem_cons_of_mem _ mem_cons_self, rfl⟩)
  exact ⟨hcontinues, call, hrequest, hstored not_mem_nil⟩

end TempoZones
