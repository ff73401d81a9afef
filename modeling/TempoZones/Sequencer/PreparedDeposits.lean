import TempoZones.Sequencer.PortalWork
import TempoZones.System.DepositFate
import TempoZones.Zone.ImportErrors

/-!
# Prepared deposits

The L1 subscriber decodes queue entries from portal logs (`L1Deposit`), hashes them
(`L1Deposit.hashChain`) and encodes them for `advanceTempo`. The key for a deposit's key index gives
a decryption record: the proof of an ECDH secret if the ephemeral key is a point, also when the
ciphertext does not decrypt, and zeros otherwise (`Ecies.record`). The call data decode to the
entries of the logs, their hash is the portal's, and every user deposit has its record.
-/

namespace TempoZones

open Lib List PortalEvent

variable {W : Type} [EvmWord W] [DecidableEq W] {prepared : PreparedL1Block W}

/-! ## Entries of the subscriber -/

/-- `WithdrawalBounceBackDeposit` of the subscriber. -/
structure L1BounceBack where
  token : Address
  recipient : Address
  amount : ℕ
  fee : ℕ

/-- `from_bounce_back`; the nonce is padded to an address. -/
def L1BounceBack.fromBounceBack (fallbackNonce : ℕ) (token : Address) (amount : ℕ) :
    L1BounceBack where
  token := token
  recipient := Fin.ofNat _ fallbackNonce
  amount := amount
  fee := 0

/-- `Deposit` of the subscriber. -/
structure L1UserDeposit (W : Type) where
  token : Address
  sender : Address
  amount : ℕ
  fee : ℕ
  tempoRefundRecipient : Address
  keyIndex : ℕ
  ephemeralPubkeyX : W
  ephemeralPubkeyYParity : ℕ
  ciphertext : Bytes
  nonce : W
  tag : W

/-- `from_event`; the log lists the fields of the queued deposit and the fee. -/
def L1UserDeposit.fromEvent (event : Deposit W) (fee : ℕ) : L1UserDeposit W where
  token := event.token
  sender := event.sender
  amount := event.amount
  fee := fee
  tempoRefundRecipient := event.tempoRefundRecipient
  keyIndex := event.keyIndex
  ephemeralPubkeyX := event.encrypted.ephemeralPubkeyX
  ephemeralPubkeyYParity := event.encrypted.ephemeralPubkeyYParity
  ciphertext := event.encrypted.ciphertext
  nonce := event.encrypted.nonce
  tag := event.encrypted.tag

def L1BounceBack.toAbi (d : L1BounceBack) : WithdrawalBounceBackDeposit :=
  ⟨d.token, d.recipient, d.amount⟩

def L1UserDeposit.toAbi (d : L1UserDeposit W) : Deposit W where
  token := d.token
  sender := d.sender
  amount := d.amount
  tempoRefundRecipient := d.tempoRefundRecipient
  keyIndex := d.keyIndex
  encrypted := ⟨d.ephemeralPubkeyX, d.ephemeralPubkeyYParity, d.ciphertext, d.nonce, d.tag⟩

inductive L1Deposit (W : Type) where
  | withdrawalBounceBack (d : L1BounceBack)
  | deposit (d : L1UserDeposit W)

namespace L1Deposit

def ofLog : PortalEvent W → Option (L1Deposit W)
  | .depositMade _ event fee _ => some (.deposit (.fromEvent event fee))
  | .withdrawalBounceBack _ fallbackNonce token amount _ =>
    some (.withdrawalBounceBack (.fromBounceBack fallbackNonce token amount))
  | _ => none

def entry : L1Deposit W → QueueEntry W
  | .withdrawalBounceBack d => .bounceBack d.toAbi
  | .deposit d => .deposit d.toAbi

def toAbiQueuedDeposit (abiEncode : QueueEntry W → Bytes) : L1Deposit W → QueuedDeposit
  | .withdrawalBounceBack d => ⟨.withdrawalBounceBack, abiEncode (.bounceBack d.toAbi)⟩
  | .deposit d => ⟨.deposit, abiEncode (.deposit d.toAbi)⟩

def hashChain (d : L1Deposit W) (prevHash : W) : W :=
  match d with
  | .withdrawalBounceBack d => keccak256 (bounceBackLinkCodec.encode
      (DepositType.withdrawalBounceBack.toNat, d.toAbi, prevHash, ()))
  | .deposit d => keccak256 (depositLinkCodec.encode
      (DepositType.deposit.toNat, d.toAbi, prevHash, ()))

def users : List (L1Deposit W) → List (L1UserDeposit W) :=
  List.filterMap fun
    | .withdrawalBounceBack _ => none
    | .deposit d => some d

end L1Deposit

open L1Deposit

def PortalEvent.enqueued (currentHash : W) : PortalEvent W → W
  | .depositMade _ event _ _ => DepositQueueLib.enqueueDeposit currentHash event
  | .withdrawalBounceBack _ fallbackNonce token amount _ =>
    DepositQueueLib.enqueue currentHash ⟨token, Fin.ofNat _ fallbackNonce, amount⟩
  | _ => currentHash

def l1Deposits (logs : List (PortalEvent W)) : List (L1Deposit W) := logs.filterMap ofLog

theorem entries_l1Deposits (logs : List (PortalEvent W)) :
    (l1Deposits logs).map entry = queueEntries logs := by
  rw [l1Deposits, queueEntries, map_filterMap]
  congr 1
  funext log
  cases log <;> rfl

theorem foldl_hashChain (logs : List (PortalEvent W)) :
    ∀ hash : W, (l1Deposits logs).foldl (fun hash d => d.hashChain hash) hash =
      logs.foldl enqueued hash := by
  induction logs with
  | nil =>
    intro hash
    rfl
  | cons log rest ih =>
    intro hash
    cases log <;> exact ih _

theorem prefixChain_entries (deposits : List (L1Deposit W)) :
    ∀ hash : W, prefixChain QueueEntry.hashWithTail hash (deposits.map entry) =
      deposits.foldl (fun hash d => d.hashChain hash) hash := by
  induction deposits with
  | nil =>
    intro hash
    rfl
  | cons d rest ih =>
    intro hash
    cases d <;> exact ih _

/-- Replaying the logs of the portal gives its deposit queue hash, now and at the end of every block. -/
theorem Trace.queueHash_enqueued {π : Platform W} {σ : Sys W} (h : Trace π σ) {s : L1 W}
    (hs : s = σ.l1 ∨ s ∈ σ.blocks) :
    s.portal.deposits.currentDepositQueueHash = s.logs.foldl enqueued 0 := by
  have hchained : Chained s := by
    rcases hs with rfl | hs
    · exact h.chained.1
    · exact h.chained.2 s hs
  rw [hchained.hash_eq, ← foldl_hashChain, ← prefixChain_entries, entries_l1Deposits]
  rfl

/-! ## Decryption records -/

/-- ECDH on the curve: private keys, and `compute_ecdh_proof`, which fails for an ephemeral key that
is not a point. -/
structure Ecies (W : Type) where
  SecretKey : Type
  publicKey : SecretKey → W × ℕ
  computeEcdhProof : SecretKey → (ephemeralX : W) → (ephemeralYParity : ℕ) →
    Option (DecryptionData W)

namespace Ecies

variable (ecies : Ecies W)

/-- `decrypt_deposit`: the proof, the recipient and the memo. -/
def decryptDeposit (ctx : ZoneCtx W) (key : ecies.SecretKey) (d : Deposit W) :
    Option (DecryptionData W × Address × W) := do
  let proof ← ecies.computeEcdhProof key d.encrypted.ephemeralPubkeyX
    d.encrypted.ephemeralPubkeyYParity
  let aesKey := ctx.lib.aesKey proof.sharedSecret ctx.portal d.keyIndex d.encrypted.ephemeralPubkeyX
    d.sender
  let (plaintext, valid) := ctx.lib.decrypt aesKey d.encrypted.nonce d.encrypted.ciphertext
    d.encrypted.tag
  if valid = false ∨ plaintext.length ≠ ENCRYPTED_PAYLOAD_PLAINTEXT_SIZE then none
  else some (proof, Fin.ofNat _ (natOfBytes (plaintext.take 20)),
    EvmWord.ofNat (natOfBytes ((plaintext.drop 20).take 32)))

def zeroed : DecryptionData W := ⟨0, 2, (0, 0)⟩

/-- Decryption data of `prepare_deposit`. -/
def record (ctx : ZoneCtx W) (key : ecies.SecretKey) (d : Deposit W) : DecryptionData W :=
  match ecies.decryptDeposit ctx key d with
  | some (proof, _, _) => proof
  | none =>
    match ecies.computeEcdhProof key d.encrypted.ephemeralPubkeyX
      d.encrypted.ephemeralPubkeyYParity with
    | some proof => proof
    | none => zeroed

def preparer (ctx : ZoneCtx W) (abiEncode : QueueEntry W → Bytes)
    (keyRing : ℕ → Option ecies.SecretKey) : Preparer W where
  abiEncode := abiEncode
  key keyIndex := (keyRing keyIndex).map fun key d => ecies.record ctx key d

theorem record_eq (ctx : ZoneCtx W) (key : ecies.SecretKey) (d : Deposit W) :
    ecies.record ctx key d = (ecies.computeEcdhProof key d.encrypted.ephemeralPubkeyX
      d.encrypted.ephemeralPubkeyYParity).getD zeroed := by
  unfold record
  cases hproof : ecies.computeEcdhProof key d.encrypted.ephemeralPubkeyX
      d.encrypted.ephemeralPubkeyYParity with
  | none => simp only [decryptDeposit, hproof, Option.bind_eq_bind, Option.bind_none,
      Option.getD_none]
  | some proof =>
    simp only [decryptDeposit, hproof, Option.bind_eq_bind, Option.bind_some, Option.getD_some]
    split
    · next proof' _ _ hdecrypted =>
      split at hdecrypted
      · cases hdecrypted
      · cases hdecrypted
        rfl
    · rfl

/-- The proofs verify against the public key, and zeros do not: no point has the coordinate zero. -/
structure Complete (lib : ZoneLibraries W) : Prop where
  verifies : ∀ key x parity proof, ecies.computeEcdhProof key x parity = some proof →
    lib.chaumPedersenVerify x parity proof.sharedSecret proof.sharedSecretYParity
      (ecies.publicKey key).1 (ecies.publicKey key).2 proof.cpProof = true
  rejects : ∀ key x parity, ecies.computeEcdhProof key x parity = none →
    lib.chaumPedersenVerify x parity 0 2 (ecies.publicKey key).1 (ecies.publicKey key).2
      (0, 0) = false

theorem recover_record {ctx : ZoneCtx W} (hcomplete : ecies.Complete ctx.lib)
    (key : ecies.SecretKey) (d : Deposit W) :
    recoverEncryptedPayload ctx d (ecies.record ctx key d) (ecies.publicKey key) =
      (ecies.decryptDeposit ctx key d).map Prod.snd := by
  rw [record_eq]
  cases hproof : ecies.computeEcdhProof key d.encrypted.ephemeralPubkeyX
      d.encrypted.ephemeralPubkeyYParity with
  | none =>
    simp only [recoverEncryptedPayload, Option.getD_none, zeroed, hcomplete.rejects _ _ _ hproof,
      decryptDeposit, hproof, Option.bind_eq_bind, Option.bind_none, Option.map_none]
    rfl
  | some proof =>
    simp only [recoverEncryptedPayload, Option.getD_some, hcomplete.verifies _ _ _ _ hproof,
      decryptDeposit, hproof, Option.bind_eq_bind, Option.bind_some, if_true]
    split
    · rfl
    · rfl

end Ecies

/-! ## Preparation of blocks -/

def userDeposits : List (QueueEntry W) → List (Deposit W) :=
  List.filterMap fun
    | .bounceBack _ => none
    | .deposit d => some d

theorem userDeposits_entries (deposits : List (L1Deposit W)) :
    userDeposits (deposits.map entry) = (users deposits).map (·.toAbi) := by
  rw [userDeposits, users, filterMap_map, map_filterMap]
  congr 1
  funext d
  cases d <;> rfl

section Prepare

variable {lib : Preparer W}

def Preparer.Resolves (lib : Preparer W) (entries : List (QueueEntry W)) : Prop :=
  ∀ d ∈ userDeposits entries, (lib.key d.keyIndex).isSome = true

theorem Preparer.resolveKeys_ok_iff {entries : List (QueueEntry W)} {u : Unit} :
    lib.resolveKeys entries = .ok u ↔ lib.Resolves entries := by
  unfold Resolves
  induction entries with
  | nil =>
    constructor
    · rintro _ d ⟨⟩
    · intro _
      rfl
  | cons entry rest ih =>
    cases entry with
    | bounceBack d => exact ih  -- bounce-backs are not encrypted
    | deposit d =>
      rw [resolveKeys]
      simp only [ok_iff, ih, userDeposits, filterMap_cons, forall_mem_cons, exists_const]

theorem Preparer.prepare_ok_iff {block : L1BlockDeposits W} :
    lib.prepare block = .ok prepared ↔ lib.Resolves block.events.deposits ∧
      prepared = ⟨block.header, block.events.deposits.map lib.toAbiQueuedDeposit,
        block.events.deposits.filterMap lib.decryption, block.events.enabledTokens, false⟩ := by
  simp only [prepare, ok_iff, resolveKeys_ok_iff, exists_const]
  constructor
  · rintro ⟨h, rfl⟩
    exact ⟨h, rfl⟩
  · rintro ⟨h, rfl⟩
    exact ⟨h, rfl⟩

theorem Preparer.resolves_append {a b : List (QueueEntry W)} :
    lib.Resolves (a ++ b) ↔ lib.Resolves a ∧ lib.Resolves b := by
  unfold Resolves
  rw [userDeposits, filterMap_append]
  exact forall_mem_append

variable {blocks : List (L1BlockDeposits W)}

theorem Preparer.prepareRest_spec : ∀ prepared : PreparedL1Block W,
      (lib.Resolves (blocks.flatMap (·.events.deposits)) →
        ∃ result, lib.prepareRest prepared blocks = .ok result) ∧
      ∀ result, lib.prepareRest prepared blocks = .ok result →
        lib.Resolves (blocks.flatMap (·.events.deposits)) ∧
        result.decryptions = prepared.decryptions ++
          (blocks.flatMap (·.events.deposits)).filterMap lib.decryption := by
  induction blocks with
  | nil =>
    intro prepared
    refine ⟨fun _ => ⟨prepared, rfl⟩, ?_⟩
    intro result h
    cases pure_ok_iff.1 h
    refine ⟨nofun, ?_⟩
    rw [flatMap_nil, filterMap_nil, append_nil]
  | cons block rest ih =>
    intro prepared
    rw [flatMap_cons]
    constructor
    · intro hresolves
      obtain ⟨hblock, hrest⟩ := resolves_append.1 hresolves
      obtain ⟨result, hresult⟩ := (ih _).1 hrest
      exact ⟨result, bind_ok_iff.2 ⟨_, prepare_ok_iff.2 ⟨hblock, rfl⟩, hresult⟩⟩
    · intro result h
      obtain ⟨next, hnext, hresult⟩ := bind_ok_iff.1 h
      obtain ⟨hblock, rfl⟩ := prepare_ok_iff.1 hnext
      obtain ⟨hrest, hdecryptions⟩ := (ih _).2 result hresult
      refine ⟨resolves_append.2 ⟨hblock, hrest⟩, ?_⟩
      rw [hdecryptions, filterMap_append, append_assoc]

theorem Preparer.prepareMany_exists (hblocks : blocks ≠ [])
    (hresolves : lib.Resolves (blocks.flatMap (·.events.deposits)))
    (hdeposits : (blocks.flatMap (·.events.deposits)).length ≤ MAX_UNPROCESSED_DEPOSITS)
    (htokens : (blocks.flatMap (·.events.enabledTokens)).length ≤
      MAX_UNPROCESSED_TOKEN_ENABLEMENTS) :
    ∃ prepared, lib.prepareMany blocks = .ok prepared := by
  cases blocks with
  | nil => exact absurd rfl hblocks
  | cons first rest =>
    rw [flatMap_cons] at hresolves
    obtain ⟨hfirst, hrest⟩ := resolves_append.1 hresolves
    obtain ⟨start, hstart⟩ : ∃ start, lib.prepare first = .ok start :=
      ⟨_, prepare_ok_iff.2 ⟨hfirst, rfl⟩⟩
    obtain ⟨result, hresult⟩ := (prepareRest_spec start).1 hrest
    obtain ⟨hqueued₀, henabled₀⟩ := prepare_ok hstart
    obtain ⟨hqueued, henabled⟩ := prepareRest_ok hresult
    have hqueued' : result.queuedDeposits.length ≤ MAX_UNPROCESSED_DEPOSITS := by
      rw [hqueued, hqueued₀, ← map_append, length_map]
      exact hdeposits
    have henabled' : result.enabledTokens.length ≤ MAX_UNPROCESSED_TOKEN_ENABLEMENTS := by
      rw [henabled, henabled₀]
      exact htokens
    simp only [prepareMany, ok_iff]
    exact ⟨_, start, hstart, result, hresult, ⟨⟩, hqueued', ⟨⟩, henabled', rfl⟩

theorem Preparer.prepareMany_contents (h : lib.prepareMany blocks = .ok prepared) :
    lib.Resolves (blocks.flatMap (·.events.deposits)) ∧
      prepared.queuedDeposits = (blocks.flatMap (·.events.deposits)).map lib.toAbiQueuedDeposit ∧
      prepared.decryptions = (blocks.flatMap (·.events.deposits)).filterMap lib.decryption ∧
      prepared.enabledTokens = blocks.flatMap (·.events.enabledTokens) := by
  cases blocks with
  | nil => cases h
  | cons first rest =>
    simp only [prepareMany, ok_iff] at h
    obtain ⟨start, hfirst, result, hrest, -, -, -, -, rfl⟩ := h
    obtain ⟨hresolves, rfl⟩ := prepare_ok_iff.1 hfirst
    obtain ⟨hqueued, henabled⟩ := prepareRest_ok hrest
    obtain ⟨hresolves', hdecryptions⟩ := (prepareRest_spec _).2 result hrest
    simp only [flatMap_cons, map_append, filterMap_append]
    exact ⟨resolves_append.2 ⟨hresolves, hresolves'⟩, hqueued, hdecryptions, henabled⟩

theorem Preparer.decryptions_forall₂ {entries : List (QueueEntry W)} (h : lib.Resolves entries) :
    List.Forall₂ (fun d record => ∃ f, lib.key d.keyIndex = some f ∧ record = f d)
      (userDeposits entries) (entries.filterMap lib.decryption) := by
  induction entries with
  | nil => exact .nil
  | cons entry rest ih =>
    cases entry with
    | bounceBack d => exact ih h
    | deposit d =>
      obtain ⟨hd, hrest⟩ := forall_mem_cons.1 h
      obtain ⟨f, hf⟩ := Option.isSome_iff_exists.1 hd
      have hdecryption : lib.decryption (.deposit d) = some (f d) := by
        rw [decryption, hf]
        rfl
      rw [filterMap_cons_some hdecryption]
      exact .cons ⟨f, hf, rfl⟩ (ih hrest)

end Prepare

/-! ## The inbox -/

section Inbox

variable {ctx : ZoneCtx W} {e : ZoneError}

def RoundTrips (lib : ZoneLibraries W) (abiEncode : QueueEntry W → Bytes)
    (entries : List (QueueEntry W)) : Prop :=
  ∀ entry ∈ entries, match entry with
    | .bounceBack d => lib.decodeBounceBack (abiEncode (.bounceBack d)) = some d
    | .deposit d => lib.decodeDeposit (abiEncode (.deposit d)) = some d

variable {entries : List (QueueEntry W)}

theorem decodeDeposits_prepared {zlib : ZoneLibraries W} {lib : Preparer W}
    (h : RoundTrips zlib lib.abiEncode entries) :
    decodeDeposits zlib (entries.map lib.toAbiQueuedDeposit) = .ok entries := by
  induction entries with
  | nil => rfl
  | cons entry rest ih =>
    obtain ⟨hentry, hrest⟩ := forall_mem_cons.1 h
    have hdecode : (lib.toAbiQueuedDeposit entry).decode zlib = .ok entry := by
      cases entry with
      | bounceBack d
      | deposit d =>
        rw [QueuedDeposit.decode, Preparer.toAbiQueuedDeposit]
        simp only [hentry]
        rfl
    rw [map_cons, decodeDeposits, hdecode, ih hrest]
    rfl

theorem processQueue_supplied (he : e.isImportCheck = true) (hne : e ≠ .invalidFallbackRecipient)
    {mints : ℕ → TryMint} :
    ∀ {i : ℕ} {decryptions : List (DecryptionData W)} {hash : W} {z : Zone W},
      (userDeposits entries).length = decryptions.length →
      Avoids e (processQueue ctx mints i entries decryptions hash z) ∧
      ∀ hash' leftover z', processQueue ctx mints i entries decryptions hash z =
        .ok (hash', leftover, z') → leftover = [] := by
  -- a bounce-back takes no record and a deposit takes the next one
  induction entries with
  | nil =>
    intro i decryptions hash z hlength
    refine ⟨.pure _, ?_⟩
    intro hash' leftover z' h
    cases pure_ok_iff.1 h
    exact eq_nil_of_length_eq_zero hlength.symm
  | cons entry rest ih =>
    intro i decryptions hash z hlength
    cases entry with
    | bounceBack d =>
      constructor
      · exact (processWithdrawalBounceBack_avoids he (fun heq => absurd heq hne) _).bind
          fun _ _ => (ih hlength).1
      · intro hash' leftover z' h
        obtain ⟨z₁, -, h⟩ := bind_ok_iff.1 h
        exact (ih hlength).2 _ _ _ h
    | deposit d =>
      cases decryptions with
      | nil => cases hlength
      | cons decryption decryptions =>
        have hrest : (userDeposits rest).length = decryptions.length := Nat.succ.inj hlength
        constructor
        · exact (readEncryptionKey_avoids he _ _).bind fun _ _ =>
            (processDeposit_avoids he _ _ _ _ _ _).bind fun _ _ => (ih hrest).1
        · intro hash' leftover z' h
          simp only [processQueue, bind_ok_iff] at h
          obtain ⟨key, -, z₁, -, h⟩ := h
          exact (ih hrest).2 _ _ _ h

theorem advanceTokens_frame {z z' : Zone W} {tokens : List EnabledToken} {enables : ℕ → Bool}
    (h : z.advanceTokens ctx tokens enables = .ok z') :
    z'.tempo = z.tempo ∧
      z'.inbox.processedDepositQueueHash = z.inbox.processedDepositQueueHash := by
  simp only [Zone.advanceTokens, ok_iff] at h
  obtain ⟨portalCount, -, z₁, henable, count, -, rfl⟩ := h
  obtain ⟨initialized, logs, rfl⟩ := enableTokens_ok henable
  exact ⟨rfl, rfl⟩

theorem advanceTempo_supplied {z : Zone W} {caller : Address} {call : AdvanceTempo W}
    {reply : AdvanceReply} (hdecode : decodeDeposits ctx.lib call.deposits = .ok entries)
    (hlength : (userDeposits entries).length = call.decryptions.length)
    (hportal : ∀ z₁ p, z.finalizeCheckpoints ctx [call.header] = .ok z₁ →
      z₁.anchoredPortal ctx = .ok p → p.deposits.currentDepositQueueHash =
        prefixChain QueueEntry.hashWithTail z.inbox.processedDepositQueueHash entries)
    (he : e.isImportCheck = true) (hne : e ≠ .invalidFallbackRecipient) :
    Avoids e (z.advanceTempo ctx caller call reply) := by
  refine advanceTempo_avoids_of he hdecode fun z₁ z₂ hcheckpoint htokens => ?_
  obtain ⟨havoids, hleftover⟩ := processQueue_supplied he hne hlength
  refine ⟨havoids, ?_⟩
  intro hash leftover z₃ hrun
  refine ⟨fun _ => hleftover _ _ _ hrun, ?_⟩
  intro _ _ p hp
  obtain ⟨htempo, hprocessed⟩ := advanceTokens_frame htokens
  obtain ⟨rfl, hpath⟩ := processQueue_ok hrun
  -- the portal read after the loop is the one at the imported block
  have hread : z₁.anchoredPortal ctx = .ok p := by
    unfold Zone.anchoredPortal at hp ⊢
    rw [hpath.cursor_eq.1, htempo] at hp
    exact hp
  obtain ⟨tempo, log, -, rfl⟩ := finalizeCheckpoints_ok hcheckpoint
  rw [hportal _ p hcheckpoint hread, hprocessed]
  rfl

end Inbox

/-! ## Main result -/

abbrev LoggedRange (W : Type) := List (NumHash W × List (PortalEvent W))

namespace LoggedRange

variable (range : LoggedRange W)

def work : List (L1BlockDeposits W) := range.map fun block => ⟨block.1, .ofLogs block.2⟩

def logs : List (PortalEvent W) := range.flatMap (·.2)

def deposits : List (L1Deposit W) := l1Deposits (logs range)

theorem work_contents : (work range).flatMap (·.events.deposits) = (deposits range).map entry ∧
      (work range).flatMap (·.events.enabledTokens) = tokenEnablements (logs range) := by
  rw [deposits, entries_l1Deposits]
  unfold work logs
  induction range with
  | nil => exact ⟨rfl, rfl⟩
  | cons block rest ih =>
    obtain ⟨hdeposits, htokens⟩ := ih
    rw [map_cons, flatMap_cons, flatMap_cons, flatMap_cons, hdeposits, htokens,
      L1PortalEvents.ofLogs_eq]
    exact ⟨filterMap_append.symm, filterMap_append.symm⟩

end LoggedRange

/-- `prepare` of one block or `prepare_many` of a range gives `prepared`. -/
inductive Prepares (lib : Preparer W) : List (L1BlockDeposits W) → PreparedL1Block W → Prop
  | one {block : L1BlockDeposits W} {prepared : PreparedL1Block W}
      (run : lib.prepare block = .ok prepared) : Prepares lib [block] prepared
  | many {blocks : List (L1BlockDeposits W)} {prepared : PreparedL1Block W}
      (run : lib.prepareMany blocks = .ok prepared) : Prepares lib blocks prepared

theorem Prepares.contents {lib : Preparer W} {blocks : List (L1BlockDeposits W)}
    (h : Prepares lib blocks prepared) :
    lib.Resolves (blocks.flatMap (·.events.deposits)) ∧
      prepared.queuedDeposits = (blocks.flatMap (·.events.deposits)).map lib.toAbiQueuedDeposit ∧
      prepared.decryptions = (blocks.flatMap (·.events.deposits)).filterMap lib.decryption ∧
      prepared.enabledTokens = blocks.flatMap (·.events.enabledTokens) := by
  cases h with
  | one run =>
    obtain ⟨hresolves, rfl⟩ := Preparer.prepare_ok_iff.1 run
    rw [flatMap_singleton, flatMap_singleton]
    exact ⟨hresolves, rfl, rfl, rfl⟩
  | many run => exact Preparer.prepareMany_contents run

/-- The portal that the zone reads after it imported `header` has hashed the logs into its queue. -/
def Zone.PortalAgrees (z : Zone W) (ctx : ZoneCtx W) (header : Bytes)
    (logs : List (PortalEvent W)) : Prop :=
  ∀ z₁ p, z.finalizeCheckpoints ctx [header] = .ok z₁ → z₁.anchoredPortal ctx = .ok p →
    p.deposits.currentDepositQueueHash =
      logs.foldl enqueued z.inbox.processedDepositQueueHash

/-- **Prepared deposits satisfy the inbox.** For every range of blocks with portal logs, every key
ring and every encoding that decoding inverts on the entries:

* preparation succeeds when the keys resolve and the work is within the capacity;
* the prepared entries decode to the entries of the logs in order, and their hash in the inbox is
  that of the subscriber and of the portal;
* there is one decryption record for each user deposit, in order, and none for a bounce-back;
* if the portal has hashed the logs into its queue, `advanceTempo` fails neither for missing or
  extra decryption data nor for the queue hash;
* if proofs verify, the inbox recovers from a record just what the sequencer decrypted. -/
theorem prepared_deposits_satisfy_inbox (ecies : Ecies W) (ctx : ZoneCtx W)
    (abiEncode : QueueEntry W → Bytes) (keyRing : ℕ → Option ecies.SecretKey)
    (range : LoggedRange W)
    (hcodec : RoundTrips ctx.lib abiEncode (range.deposits.map entry)) :
    (range ≠ [] → (∀ d ∈ users range.deposits, (keyRing d.keyIndex).isSome = true) →
      range.deposits.length ≤ MAX_UNPROCESSED_DEPOSITS →
      (tokenEnablements range.logs).length ≤ MAX_UNPROCESSED_TOKEN_ENABLEMENTS →
      ∃ prepared, (ecies.preparer ctx abiEncode keyRing).prepareMany range.work = .ok prepared) ∧
    ∀ prepared, Prepares (ecies.preparer ctx abiEncode keyRing) range.work prepared →
      prepared.queuedDeposits = range.deposits.map (·.toAbiQueuedDeposit abiEncode) ∧
      decodeDeposits ctx.lib prepared.queuedDeposits = .ok (range.deposits.map entry) ∧
      prepared.enabledTokens = tokenEnablements range.logs ∧
      (∀ previous : W,
        prefixChain QueueEntry.hashWithTail previous (range.deposits.map entry) =
          range.deposits.foldl (fun hash d => d.hashChain hash) previous ∧
        range.deposits.foldl (fun hash d => d.hashChain hash) previous =
          range.logs.foldl enqueued previous) ∧
      List.Forall₂ (fun d record => ∃ key, keyRing d.keyIndex = some key ∧
          record = ecies.record ctx key d.toAbi)
        (users range.deposits) prepared.decryptions ∧
      (∀ (z : Zone W) (caller : Address) (header : Bytes) (reply : AdvanceReply),
        z.PortalAgrees ctx header range.logs →
        ∀ e ∈ [ZoneError.missingDecryptionData, .extraDecryptionData, .invalidDepositQueueHash],
          z.advanceTempo ctx caller ⟨header, prepared.queuedDeposits, prepared.decryptions,
            prepared.enabledTokens⟩ reply ≠ .error e) ∧
      (ecies.Complete ctx.lib → ∀ (key : ecies.SecretKey) (d : L1UserDeposit W),
        recoverEncryptedPayload ctx d.toAbi (ecies.record ctx key d.toAbi) (ecies.publicKey key) =
          (ecies.decryptDeposit ctx key d.toAbi).map Prod.snd) := by
  obtain ⟨hdeposits, htokens⟩ := range.work_contents
  constructor
  · intro hrange hkeys hlength hlength'
    apply Preparer.prepareMany_exists
    · intro hnil
      exact hrange (map_eq_nil_iff.1 hnil)
    · rw [hdeposits]
      intro d hd
      rw [userDeposits_entries] at hd
      obtain ⟨user, huser, rfl⟩ := mem_map.1 hd
      rw [Ecies.preparer, Option.isSome_map]
      exact hkeys user huser
    · rw [hdeposits, length_map]
      exact hlength
    · rw [htokens]
      exact hlength'
  · intro prepared hprepared
    obtain ⟨hresolves, hqueued, hdecryptions, henabled⟩ := hprepared.contents
    rw [hdeposits] at hresolves hqueued hdecryptions
    rw [htokens] at henabled
    have hdecode : decodeDeposits ctx.lib prepared.queuedDeposits =
        .ok (range.deposits.map entry) := by
      rw [hqueued]
      exact decodeDeposits_prepared hcodec
    have hrecords := Preparer.decryptions_forall₂ hresolves
    rw [← hdecryptions, userDeposits_entries, forall₂_map_left_iff] at hrecords
    have hhash : ∀ previous : W,
        prefixChain QueueEntry.hashWithTail previous (range.deposits.map entry) =
          range.logs.foldl enqueued previous := fun previous =>
      (prefixChain_entries _ previous).trans (foldl_hashChain _ previous)
    refine ⟨?_, hdecode, henabled, ?_, ?_, ?_, ?_⟩
    · rw [hqueued, map_map]
      apply map_congr_left
      intro d _
      cases d <;> rfl
    · exact fun previous => ⟨prefixChain_entries _ previous, foldl_hashChain _ previous⟩
    · apply hrecords.imp
      rintro d record ⟨f, hf, rfl⟩
      obtain ⟨key, hkey, rfl⟩ := Option.map_eq_some_iff.1 hf
      exact ⟨key, hkey, rfl⟩
    · intro z caller header reply hagrees e he
      have hlength : (userDeposits (range.deposits.map entry)).length =
          prepared.decryptions.length := by
        rw [userDeposits_entries, length_map]
        exact hrecords.length_eq
      have hportal : ∀ z₁ p, z.finalizeCheckpoints ctx [header] = .ok z₁ →
          z₁.anchoredPortal ctx = .ok p → p.deposits.currentDepositQueueHash =
            prefixChain QueueEntry.hashWithTail z.inbox.processedDepositQueueHash
              (range.deposits.map entry) := fun z₁ p hz hp =>
        (hagrees z₁ p hz hp).trans (hhash _).symm
      -- each of the three errors is raised by a check that the prepared data passes
      have hcheck : e.isImportCheck = true ∧ e ≠ .invalidFallbackRecipient := by
        simp only [mem_cons, not_mem_nil, or_false] at he
        rcases he with rfl | rfl | rfl <;> exact ⟨rfl, by decide⟩
      exact advanceTempo_supplied hdecode hlength hportal hcheck.1 hcheck.2
    · exact fun hcomplete key d => ecies.recover_record hcomplete key d.toAbi

namespace Example

/-- A second deposit, to another key. -/
def secondDeposit : Deposit Sym := { depositArgs.queued 20 0 with amount := 4, keyIndex := 1 }

/-- Two blocks: a deposit and a bounce-back, then the second deposit. -/
def depositRange : LoggedRange Sym :=
  [(⟨7, .num 70⟩,
      [.depositMade 0 (depositArgs.queued 20 0) 0 1, .withdrawalBounceBack 0 3 50 6 2]),
    (⟨8, .num 80⟩, [.depositMade 0 secondDeposit 0 3])]

/-- A codec for the entries of one sender: key index and amount, or nonce and amount. -/
def abiEncodeShort : QueueEntry Sym → Bytes
  | .deposit d => [0, UInt8.ofNat d.keyIndex, UInt8.ofNat d.amount]
  | .bounceBack d => [1, UInt8.ofNat d.recipient.val, UInt8.ofNat d.amount]

/-- The libraries of `zoneCtx` with the decoder of `abiEncodeShort`. -/
def shortCtx : ZoneCtx Sym :=
  { zoneCtx with lib := { zoneCtx.lib with
      decodeDeposit := fun
        | [0, keyIndex, amount] => some { depositArgs.queued 20 0 with
            keyIndex := keyIndex.toNat, amount := amount.toNat }
        | _ => none
      decodeBounceBack := fun
        | [1, nonce, amount] => some ⟨50, Fin.ofNat _ nonce.toNat, amount.toNat⟩
        | _ => none } }

/-- Two sequencer keys. -/
def twoKeys : Ecies Sym where
  SecretKey := Bool
  publicKey := fun key => (bif key then .num 1 else .num 2, 2)
  computeEcdhProof := fun key x _ => some ⟨bif key then x else .num 2, 2, (.num 3, .num 4)⟩

/-- The keys of index 0 and 1. -/
def keyRing (keyIndex : ℕ) : Option Bool := [true, false][keyIndex]?

end Example

open Example

theorem sysBlock_queueHash :
    sysBlock.l1.portal.deposits.currentDepositQueueHash = sysBlock.l1.logs.foldl enqueued 0 :=
  Trace.queueHash_enqueued sysBlock_reachable.trace (.inl rfl)

/-- The inbox reads back both deposits and the bounce-back between them, with a record of the right
key for each deposit, and its hash fold is that of the portal. -/
theorem prepared_deposits_satisfy_inbox_example :
    ∃ prepared, (twoKeys.preparer shortCtx abiEncodeShort keyRing).prepareMany depositRange.work =
        .ok prepared ∧
      decodeDeposits shortCtx.lib prepared.queuedDeposits =
        .ok [.deposit (depositArgs.queued 20 0), .bounceBack ⟨50, 3, 6⟩, .deposit secondDeposit] ∧
      prepared.decryptions = [twoKeys.record shortCtx true (depositArgs.queued 20 0),
        twoKeys.record shortCtx false secondDeposit] ∧
      prefixChain QueueEntry.hashWithTail 0 (depositRange.deposits.map entry) =
        depositRange.logs.foldl enqueued 0 := by
  have hcodec : RoundTrips shortCtx.lib abiEncodeShort (depositRange.deposits.map entry) := by
    intro entry hentry
    have hentry : entry ∈ [QueueEntry.deposit (depositArgs.queued 20 0), .bounceBack ⟨50, 3, 6⟩,
      .deposit secondDeposit] := hentry
    simp only [mem_cons, not_mem_nil, or_false] at hentry
    rcases hentry with rfl | rfl | rfl <;> rfl
  obtain ⟨hexists, hall⟩ := prepared_deposits_satisfy_inbox twoKeys shortCtx abiEncodeShort keyRing
    depositRange hcodec
  have hkeys : ∀ d ∈ users depositRange.deposits, (keyRing d.keyIndex).isSome = true := by decide
  obtain ⟨prepared, hprepared⟩ := hexists (cons_ne_nil _ _) hkeys (by decide) (by decide)
  obtain ⟨-, hdecode, -, hhash, hrecords, -⟩ := hall prepared (.many hprepared)
  refine ⟨prepared, hprepared, hdecode, ?_, (hhash 0).1.trans (hhash 0).2⟩
  generalize prepared.decryptions = decryptions at hrecords
  obtain _ | ⟨⟨key, hkey, rfl⟩, _ | ⟨⟨key', hkey', rfl⟩, hnil⟩⟩ := hrecords
  cases hnil
  cases hkey
  cases hkey'
  rfl

end TempoZones
