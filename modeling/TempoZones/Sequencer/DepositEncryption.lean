import Mathlib.Algebra.Module.ZMod
import TempoZones.Portal.CurvePoints
import TempoZones.Primitives.Buffer
import TempoZones.Sequencer.PreparedDeposits

/-!
# Encrypted deposits

A depositor encrypts recipient and memo to the sequencer's key; the sequencer proves to the inbox that
the shared secret is the right one, with a Chaum-Pedersen proof whose nonce is derived. `EcGroup` is a
group of prime order with the encodings of the curve library, in which `verify`, `compute_ecdh_proof`
and `encrypt_deposit` are modelled. HKDF and cipher are ideal (`IdealCipher`): different inputs derive
different keys, and only what was encrypted under a key authenticates under it. What a key binds is
then up to the layout of its info (`hkdfInfo_inj`).
-/

namespace TempoZones

open Lib List Option EvmWord Nat

variable {W : Type} [EvmWord W]

/-! ## Groups of prime order -/

/-- A group of prime order as the curve library presents it. Every point but the identity has a
compressed encoding, and what decodes is such a point with the given x-coordinate. -/
structure EcGroup (W : Type) where
  Point : Type
  order : ℕ
  [prime : Fact order.Prime]
  [group : AddCommGroup Point]
  [scalars : Module (ZMod order) Point]
  [decEq : DecidableEq Point]
  generator : Point
  /-- x-coordinate and tag of `to_encoded_point(true)`. -/
  compressed : Point → W × ℕ
  /-- `to_encoded_point(false)`. -/
  uncompressed : Point → Bytes
  recoverPoint : W → ℕ → Option Point
  /-- `reduce_bytes` and `to_repr` of scalars. -/
  reduce : W → ZMod order
  toRepr : ZMod order → W
  /-- `SecretKey::from_slice`. -/
  fromSlice : W → Option (ZMod order)
  hmacSha256 : W → List (Chunk W) → W
  generator_ne_zero : generator ≠ 0
  recover_compressed : ∀ p, p ≠ 0 → recoverPoint (compressed p).1 (compressed p).2 = some p
  recover_ne_zero : ∀ x parity p, recoverPoint x parity = some p → p ≠ 0
  reduce_toRepr : ∀ s, reduce (toRepr s) = s

attribute [instance] EcGroup.prime EcGroup.group EcGroup.scalars EcGroup.decEq

def CP_NONCE_DOMAIN : Bytes := "tempo-zone-chaum-pedersen-nonce-v1".toUTF8.toList

namespace EcGroup

variable (g : EcGroup W)

def SecretKey : Type := { k : ZMod g.order // k ≠ 0 }

def challengeHash (ephemeralPub sequencerPub sharedSecret r1 r2 : g.Point) : ZMod g.order :=
  g.reduce (keccak256 ([g.generator, ephemeralPub, sequencerPub, sharedSecret, r1, r2].map
    fun p => .raw (g.uncompressed p)))

def verify (ephemeralX : W) (ephemeralYParity : ℕ) (sharedSecretX : W) (sharedSecretYParity : ℕ)
    (sequencerX : W) (sequencerYParity : ℕ) (proof : W × W) : Bool :=
  match g.recoverPoint ephemeralX ephemeralYParity,
    g.recoverPoint sharedSecretX sharedSecretYParity,
    g.recoverPoint sequencerX sequencerYParity with
  | some ephemeralPub, some sharedSecret, some sequencerPub =>
    let s := g.reduce proof.1
    let c := g.reduce proof.2
    let r1 := s • g.generator - c • sequencerPub
    let r2 := s • ephemeralPub - c • sharedSecret
    decide (c = g.challengeHash ephemeralPub sequencerPub sharedSecret r1 r2)
  | _, _, _ => false

def encodedPoint (p : g.Point) : List (Chunk W) :=
  [.raw [UInt8.ofNat (g.compressed p).2], .word (g.compressed p).1]

def deterministicCpNonce (privSeq : ZMod g.order) (ephemeralPub sequencerPub sharedSecret : g.Point) :
    Option (ZMod g.order) :=
  (List.range (2 ^ 32)).findSome? fun counter =>
    g.fromSlice (g.hmacSha256 (g.toRepr privSeq) (.raw CP_NONCE_DOMAIN :: g.encodedPoint ephemeralPub ++
      g.encodedPoint sequencerPub ++ g.encodedPoint sharedSecret ++ [.raw (beBytes 4 counter)]))

/-- `compute_ecdh_proof` with `generate_chaum_pedersen_proof`. -/
def computeEcdhProof (key : g.SecretKey) (ephemeralX : W) (ephemeralYParity : ℕ) :
    Option (DecryptionData W) := do
  let ephemeralPub ← g.recoverPoint ephemeralX ephemeralYParity
  let sharedSecret := key.1 • ephemeralPub
  -- the identity has no x-coordinate
  if sharedSecret = 0 then none else
    let sequencerPub := key.1 • g.generator
    let k ← g.deterministicCpNonce key.1 ephemeralPub sequencerPub sharedSecret
    let c := g.challengeHash ephemeralPub sequencerPub sharedSecret (k • g.generator)
      (k • ephemeralPub)
    let s := k + c * key.1
    some ⟨(g.compressed sharedSecret).1, (g.compressed sharedSecret).2, (g.toRepr s, g.toRepr c)⟩

def ecies : Ecies W where
  SecretKey := g.SecretKey
  publicKey := fun key => g.compressed (key.1 • g.generator)
  computeEcdhProof := g.computeEcdhProof

/-- `build_plaintext`: the memo is a 32-byte integer. -/
def buildPlaintext (recipient : Address) (memo : ℕ) : Bytes :=
  beBytes 20 recipient.val ++ beBytes 32 memo ++ List.replicate 12 0

/-- `encrypt_deposit` with the ephemeral key and the nonce it draws. -/
def encryptDeposit (lib : ZoneLibraries W) (encrypt : W → W → Bytes → Bytes × W) (seqPub : W × ℕ)
    (recipient : Address) (memo : ℕ) (sender portal : Address) (keyIndex : ℕ)
    (ephKey : g.SecretKey) (nonce : W) : Option (DepositPayload W) := do
  let seqPoint ← g.recoverPoint seqPub.1 seqPub.2
  let ephPub := g.compressed (ephKey.1 • g.generator)
  let shared := ephKey.1 • seqPoint
  if shared = 0 then none else
    let aesKey := lib.aesKey (g.compressed shared).1 portal keyIndex ephPub.1 sender
    let encrypted := encrypt aesKey nonce (buildPlaintext recipient memo)
    some ⟨ephPub.1, ephPub.2, encrypted.1, nonce, encrypted.2⟩

def FindsNonces : Prop := ∀ privSeq ephemeralPub sequencerPub sharedSecret,
  (g.deterministicCpNonce privSeq ephemeralPub sequencerPub sharedSecret).isSome = true

variable {g}

omit [EvmWord W] in
theorem SecretKey.smul_ne_zero (key : g.SecretKey) {p : g.Point} (hp : p ≠ 0) : key.1 • p ≠ 0 :=
  (smul_ne_zero_iff (R := ZMod g.order) (M := g.Point)).2 ⟨key.2, hp⟩

theorem computeEcdhProof_eq (hnonces : g.FindsNonces) (key : g.SecretKey) {x : W} {parity : ℕ}
    {p : g.Point} (hp : g.recoverPoint x parity = some p) :
    ∃ proof, g.computeEcdhProof key x parity = some proof ∧
      proof.sharedSecret = (g.compressed (key.1 • p)).1 ∧
      g.verify x parity proof.sharedSecret proof.sharedSecretYParity (g.ecies.publicKey key).1
        (g.ecies.publicKey key).2 proof.cpProof = true := by
  have hshared := key.smul_ne_zero (g.recover_ne_zero x parity p hp)
  have hpublic := key.smul_ne_zero g.generator_ne_zero
  obtain ⟨k, hk⟩ := isSome_iff_exists.1 (hnonces key.1 p (key.1 • g.generator) (key.1 • p))
  -- the response cancels the challenge on both bases
  have hcancel : ∀ (c : ZMod g.order) (q : g.Point),
      (k + c * key.1) • q - c • key.1 • q = k • q := by
    intro c q
    rw [add_smul, mul_smul, add_sub_cancel_right]
  simp only [computeEcdhProof, hp, hk, bind_eq_bind, bind_some, if_neg hshared]
  refine ⟨_, rfl, rfl, ?_⟩
  simp only [verify, ecies, hp, g.recover_compressed _ hshared, g.recover_compressed _ hpublic,
    g.reduce_toRepr, hcancel, decide_true]

theorem computeEcdhProof_eq_none (hnonces : g.FindsNonces) {key : g.SecretKey} {x : W} {parity : ℕ}
    (h : g.computeEcdhProof key x parity = none) : g.recoverPoint x parity = none := by
  cases hp : g.recoverPoint x parity with
  | none => rfl
  | some p =>
    obtain ⟨proof, hproof, -⟩ := computeEcdhProof_eq hnonces key hp
    cases hproof.symm.trans h

theorem ecies_complete {lib : ZoneLibraries W} (hlib : lib.chaumPedersenVerify = g.verify)
    (hnonces : g.FindsNonces) : g.ecies.Complete lib where
  verifies := by
    intro key x parity proof hproof
    cases hp : g.recoverPoint x parity with
    | none =>
      have hnone : g.computeEcdhProof key x parity = none := by
        simp only [computeEcdhProof, hp, bind_eq_bind, bind_none]
      cases hnone.symm.trans hproof
    | some p =>
      obtain ⟨proof', hproof', -, hverify⟩ := computeEcdhProof_eq hnonces key hp
      obtain rfl : proof' = proof := some.inj (hproof'.symm.trans hproof)
      rw [hlib]
      exact hverify
  rejects := by
    intro key x parity hnone
    rw [hlib, verify, computeEcdhProof_eq_none hnonces hnone]

end EcGroup

/-! ## Ideal primitives -/

/-- HKDF binds its inputs, and a ciphertext authenticates exactly under the key, with the nonce and to
the plaintext it was made with. -/
structure IdealCipher (lib : ZoneLibraries W) (encrypt : W → W → Bytes → Bytes × W) : Prop where
  hkdf_inj : ∀ {ikm ikm' salt salt' info info'},
    lib.hkdfSha256 ikm salt info = lib.hkdfSha256 ikm' salt' info' →
      ikm = ikm' ∧ salt = salt' ∧ info = info'
  authentic : ∀ {key nonce ciphertext tag plaintext},
    lib.decrypt key nonce ciphertext tag = (plaintext, true) ↔
      encrypt key nonce plaintext = (ciphertext, tag)
  committing : ∀ {key key' nonce nonce' plaintext plaintext'},
    encrypt key nonce plaintext = encrypt key' nonce' plaintext' → key = key'

theorem beBytes_inj {width n m : ℕ} (hn : n < 256 ^ width) (hm : m < 256 ^ width)
    (h : beBytes width n = beBytes width m) : n = m := by
  have hread := congrArg natOfBytes h
  rwa [natOfBytes_beBytes, natOfBytes_beBytes, mod_eq_of_lt hn, mod_eq_of_lt hm] at hread

/-- The fields of the info have fixed widths. -/
theorem hkdfInfo_inj {portal portal' sender sender' : Address} {i i' : ℕ} {x x' : W}
    (hi : i < 2 ^ 256) (hi' : i' < 2 ^ 256)
    (h : hkdfInfo portal i x sender = hkdfInfo portal' i' x' sender') :
    portal = portal' ∧ i = i' ∧ x = x' ∧ sender = sender' := by
  have haddress : ∀ {a b : Address}, beBytes 20 a = beBytes 20 b → a = b := fun {a b} hab =>
    Fin.ext (beBytes_inj (lt_of_lt_of_eq a.isLt (by norm_num)) (lt_of_lt_of_eq b.isLt (by norm_num))
      hab)
  simp only [hkdfInfo, cons.injEq, Chunk.raw.injEq, Chunk.word.injEq] at h
  obtain ⟨hhead, hx, hsender, -⟩ := h
  obtain ⟨hportal, hindex⟩ := append_inj hhead (by simp)
  refine ⟨haddress hportal, beBytes_inj ?_ ?_ hindex, hx, haddress hsender⟩
  · exact lt_of_lt_of_eq hi (by norm_num)
  · exact lt_of_lt_of_eq hi' (by norm_num)

namespace EcGroup

variable {g : EcGroup W}

theorem encryptDeposit_eq (lib : ZoneLibraries W) (encrypt : W → W → Bytes → Bytes × W)
    (key ephKey : g.SecretKey) (recipient : Address) (memo : ℕ) (sender portal : Address)
    (keyIndex : ℕ) (nonce : W) :
    g.encryptDeposit lib encrypt (g.ecies.publicKey key) recipient memo sender portal keyIndex ephKey
        nonce =
      let ephPub := g.compressed (ephKey.1 • g.generator)
      let encrypted := encrypt (lib.aesKey (g.compressed (key.1 • ephKey.1 • g.generator)).1 portal
        keyIndex ephPub.1 sender) nonce (buildPlaintext recipient memo)
      some ⟨ephPub.1, ephPub.2, encrypted.1, nonce, encrypted.2⟩ := by
  have hpublic := key.smul_ne_zero g.generator_ne_zero
  have hshared := ephKey.smul_ne_zero hpublic
  simp only [encryptDeposit, ecies, g.recover_compressed _ hpublic, bind_eq_bind,
    bind_some, if_neg hshared]
  rw [smul_comm ephKey.1 key.1]

theorem buildPlaintext_parse (recipient : Address) {memo : ℕ} (hmemo : memo < 2 ^ 256) :
    (buildPlaintext recipient memo).length = ENCRYPTED_PAYLOAD_PLAINTEXT_SIZE ∧
      natOfBytes ((buildPlaintext recipient memo).take 20) = recipient.val ∧
      natOfBytes (((buildPlaintext recipient memo).drop 20).take 32) = memo := by
  have htake : (buildPlaintext recipient memo).take 20 = beBytes 20 recipient.val := by
    rw [buildPlaintext, append_assoc, take_left' (length_beBytes _ _)]
  have hdrop : ((buildPlaintext recipient memo).drop 20).take 32 = beBytes 32 memo := by
    rw [buildPlaintext, append_assoc, drop_left' (length_beBytes _ _),
      take_left' (length_beBytes _ _)]
  refine ⟨?_, ?_, ?_⟩
  · simp [buildPlaintext, ENCRYPTED_PAYLOAD_PLAINTEXT_SIZE]
  · rw [htake, natOfBytes_beBytes, mod_eq_of_lt]
    exact lt_of_lt_of_eq recipient.isLt (by norm_num)
  · rw [hdrop, natOfBytes_beBytes, mod_eq_of_lt]
    exact lt_of_lt_of_eq hmemo (by norm_num)

/-- **Deposit encryption.** For every key of the sequencer: the proof for a decodable ephemeral key
verifies; node and inbox agree on every deposit; an honestly encrypted deposit is read back by the
inbox; and with another portal, key index, ephemeral coordinate or sender its ciphertext is
rejected. -/
theorem deposit_encryption_complete [DecidableEq W] (g : EcGroup W) (ctx : ZoneCtx W)
    (encrypt : W → W → Bytes → Bytes × W) (hlib : ctx.lib.chaumPedersenVerify = g.verify)
    (hideal : IdealCipher ctx.lib encrypt) (hnonces : g.FindsNonces) (key : g.SecretKey) :
    (∀ x parity, (g.recoverPoint x parity).isSome = true →
      ∃ proof, g.computeEcdhProof key x parity = some proof ∧
        g.verify x parity proof.sharedSecret proof.sharedSecretYParity (g.ecies.publicKey key).1
          (g.ecies.publicKey key).2 proof.cpProof = true) ∧
    (∀ d : Deposit W, recoverEncryptedPayload ctx d (g.ecies.record ctx key d)
      (g.ecies.publicKey key) = (g.ecies.decryptDeposit ctx key d).map Prod.snd) ∧
    ∀ (ephKey : g.SecretKey) (recipient : Address) (memo : ℕ) (sender : Address) (keyIndex : ℕ)
      (nonce : W), memo < 2 ^ 256 → keyIndex < 2 ^ 256 → ∃ payload,
      g.encryptDeposit ctx.lib encrypt (g.ecies.publicKey key) recipient memo sender ctx.portal
        keyIndex ephKey nonce = some payload ∧
      (∀ d : Deposit W, d.encrypted = payload → d.sender = sender → d.keyIndex = keyIndex →
        recoverEncryptedPayload ctx d (g.ecies.record ctx key d) (g.ecies.publicKey key) =
          some (recipient, ofNat memo)) ∧
      ∀ (portal : Address) (d : Deposit W), d.encrypted.ciphertext = payload.ciphertext →
        d.encrypted.tag = payload.tag → d.keyIndex < 2 ^ 256 →
        (portal, d.keyIndex, d.encrypted.ephemeralPubkeyX, d.sender) ≠
          (ctx.portal, keyIndex, payload.ephemeralPubkeyX, sender) →
        (∀ decryption pub, recoverEncryptedPayload { ctx with portal := portal } d decryption pub =
          none) ∧
        ∀ other : g.SecretKey, g.ecies.decryptDeposit { ctx with portal := portal } other d = none := by
  have hagree : ∀ d : Deposit W, recoverEncryptedPayload ctx d (g.ecies.record ctx key d)
      (g.ecies.publicKey key) = (g.ecies.decryptDeposit ctx key d).map Prod.snd :=
    g.ecies.recover_record (ecies_complete hlib hnonces) key
  refine ⟨?_, hagree, ?_⟩
  · intro x parity hsome
    obtain ⟨p, hp⟩ := isSome_iff_exists.1 hsome
    obtain ⟨proof, hproof, -, hverify⟩ := computeEcdhProof_eq hnonces key hp
    exact ⟨proof, hproof, hverify⟩
  intro ephKey recipient memo sender keyIndex nonce hmemo hkeyIndex
  refine ⟨_, encryptDeposit_eq .., ?_, ?_⟩
  · intro d hpayload hsender hindex
    obtain ⟨hlength, hrecipient, hword⟩ := buildPlaintext_parse recipient hmemo
    have hp := g.recover_compressed _ (ephKey.smul_ne_zero g.generator_ne_zero)
    obtain ⟨proof, hproof, hsecret, -⟩ := computeEcdhProof_eq hnonces key hp
    have hdecrypt := hideal.authentic.2 (Prod.eta (encrypt (ctx.lib.aesKey (g.compressed
      (key.1 • ephKey.1 • g.generator)).1 ctx.portal keyIndex (g.compressed
        (ephKey.1 • g.generator)).1 sender) nonce (buildPlaintext recipient memo))).symm
    have hecies : g.ecies.computeEcdhProof key = g.computeEcdhProof key := rfl
    rw [hagree]
    simp only [Ecies.decryptDeposit, hpayload, hsender, hindex, hecies, hproof, hsecret, hdecrypt,
      bind_eq_bind, bind_some, hlength, hrecipient, hword]
    simp
  · intro portal d hciphertext htag hbound hchanged
    -- a plaintext would have been encrypted under the key that was derived from the old inputs
    have hinvalid : ∀ secret, (ctx.lib.decrypt (ctx.lib.aesKey secret portal d.keyIndex
        d.encrypted.ephemeralPubkeyX d.sender) d.encrypted.nonce d.encrypted.ciphertext
        d.encrypted.tag).2 = false := by
      intro secret
      by_contra hvalid
      rw [Bool.not_eq_false] at hvalid
      have hmade := hideal.authentic.1 (Prod.ext rfl hvalid)
      rw [hciphertext, htag] at hmade
      obtain ⟨-, -, hinfo⟩ := hideal.hkdf_inj (hideal.committing hmade)
      obtain ⟨hportal, hindex, hx, hsender⟩ := hkdfInfo_inj hbound hkeyIndex hinfo
      exact hchanged (by rw [hportal, hindex, hx, hsender])
    constructor
    · intro decryption pub
      unfold recoverEncryptedPayload
      simp [hinvalid]
    · intro other
      cases hproof : g.ecies.computeEcdhProof other d.encrypted.ephemeralPubkeyX
          d.encrypted.ephemeralPubkeyYParity with
      | none => simp only [Ecies.decryptDeposit, hproof, bind_eq_bind, bind_none]
      | some proof =>
        simp [Ecies.decryptDeposit, hproof, hinvalid]

namespace Example

def orderThree : EcGroup Sym where
  Point := ZMod 3
  order := 3
  prime := ⟨prime_three⟩
  generator := 1
  compressed := fun p => (.num 1, if p = 1 then 2 else 3)
  uncompressed := fun p => [UInt8.ofNat p.val]
  recoverPoint := fun x parity =>
    if x = .num 1 ∧ parity = 2 then some 1 else if x = .num 1 ∧ parity = 3 then some 2 else none
  reduce := fun w => (toNat w : ZMod 3)
  toRepr := fun s => .num s.val
  fromSlice := fun _ => some 1
  hmacSha256 := fun _ _ => .num 1
  generator_ne_zero := by decide
  recover_compressed := by decide
  recover_ne_zero := by
    intro x parity p h
    split at h
    · cases h
      decide
    · split at h
      · cases h
        decide
      · cases h
  reduce_toRepr := by decide

def hashCipher (key nonce : Sym) (plaintext : Bytes) : Bytes × Sym :=
  (plaintext, keccak256 [.word key, .word nonce, .raw plaintext])

def cipherCtx : ZoneCtx Sym :=
  { TempoZones.Example.zoneCtx with
    lib := { TempoZones.Example.zoneCtx.lib with
      chaumPedersenVerify := orderThree.verify
      hkdfSha256 := fun ikm salt info => keccak256 (.word ikm :: .raw salt :: info)
      decrypt := fun key nonce ciphertext tag =>
        (ciphertext, decide (tag = keccak256 [.word key, .word nonce, .raw ciphertext])) } }

theorem cipherCtx_ideal : IdealCipher cipherCtx.lib hashCipher where
  hkdf_inj := by
    intro ikm ikm' salt salt' info info' h
    have hinputs := Sym.collisionFree.keccak_inj h
    simp only [List.cons.injEq, Chunk.word.injEq, Chunk.raw.injEq] at hinputs
    exact hinputs
  authentic := by
    intro key nonce ciphertext tag plaintext
    simp only [cipherCtx, hashCipher, Prod.mk.injEq, decide_eq_true_eq]
    constructor <;> (rintro ⟨rfl, rfl⟩; exact ⟨rfl, rfl⟩)
  committing := by
    intro key key' nonce nonce' plaintext plaintext' h
    have hinputs := Sym.collisionFree.keccak_inj (Prod.mk.inj h).2
    simp only [List.cons.injEq, Chunk.word.injEq] at hinputs
    exact hinputs.1

theorem orderThree_nonces : orderThree.FindsNonces := by
  intro privSeq ephemeralPub sequencerPub sharedSecret
  rw [deterministicCpNonce, List.findSome?_isSome_iff]
  exact ⟨0, by simp, rfl⟩

/-- A deposit is read back, and with another sender it is rejected. -/
theorem deposit_encryption_example : ∃ payload,
    orderThree.encryptDeposit cipherCtx.lib hashCipher
      (orderThree.ecies.publicKey ⟨2, by decide⟩) 30 7 20 cipherCtx.portal 0 ⟨1, by decide⟩ (.num 5) =
        some payload ∧
    ∀ d : Deposit Sym, d.encrypted = payload → d.keyIndex = 0 →
      (d.sender = 20 →
        recoverEncryptedPayload cipherCtx d (orderThree.ecies.record cipherCtx ⟨2, by decide⟩ d)
          (orderThree.ecies.publicKey ⟨2, by decide⟩) = some (30, .num 7)) ∧
      (d.sender = 21 → ∀ decryption pub, recoverEncryptedPayload cipherCtx d decryption pub = none) := by
  obtain ⟨-, -, hhonest⟩ := deposit_encryption_complete orderThree cipherCtx hashCipher rfl
    cipherCtx_ideal orderThree_nonces ⟨2, by decide⟩
  obtain ⟨payload, hencrypt, hrecover, hrejects⟩ :=
    hhonest ⟨1, by decide⟩ 30 7 20 0 (.num 5) (by norm_num) (by norm_num)
  refine ⟨payload, hencrypt, fun d hpayload hindex =>
    ⟨fun hsender => hrecover d hpayload hsender hindex, fun hsender => ?_⟩⟩
  have hchanged : (cipherCtx.portal, d.keyIndex, d.encrypted.ephemeralPubkeyX, d.sender) ≠
      (cipherCtx.portal, 0, payload.ephemeralPubkeyX, 20) := by
    rw [hsender]
    simp
  exact (hrejects cipherCtx.portal d (congrArg _ hpayload) (congrArg _ hpayload)
    (by rw [hindex]; norm_num) hchanged).1

end Example

end EcGroup

/-! ## Portal deposits -/

namespace Secp256k1Lib

/-- **Curve points.** The portal accepts an x-coordinate exactly if it is a field element for which
the curve equation has a nonzero square. For both parities the zone then finds the only point, so
the ephemeral key of every accepted deposit decodes, and preparation finds a proof for it. -/
theorem curve_point_validation_exact (k256 : CurveLibrary) :
    (∀ x : W, isValidX x = true ↔ toNat x < SECP256K1_P ∧
      ((toNat x : ZMod SECP256K1_P) ^ 3 + 7 ≠ 0 ∧
        IsSquare ((toNat x : ZMod SECP256K1_P) ^ 3 + 7))) ∧
    (∀ (x : W) (yParity : ℕ), isValidX x = true → yParity = 2 ∨ yParity = 3 →
      ∃ point, k256.recoverPoint x yParity = some point ∧ OnCurve point ∧ point.1 = toNat x ∧
        point.2 % 2 = yParity % 2 ∧ ∀ other, OnCurve other → other.1 = toNat x →
          other.2 % 2 = yParity % 2 → other = point) ∧
    ∀ (s s' : L1 W) (ctx : CallCtx W) (ts : TokenSystem) (sender : Address) (args : DepositArgs W),
      s.deposit ctx ts sender args = .ok s' →
      (k256.recoverPoint args.encrypted.ephemeralPubkeyX
        args.encrypted.ephemeralPubkeyYParity).isSome = true ∧
      ∀ (g : EcGroup W) (key : g.SecretKey), g.FindsNonces →
        (g.recoverPoint args.encrypted.ephemeralPubkeyX
          args.encrypted.ephemeralPubkeyYParity).isSome =
          (k256.recoverPoint args.encrypted.ephemeralPubkeyX
            args.encrypted.ephemeralPubkeyYParity).isSome →
        g.computeEcdhProof key args.encrypted.ephemeralPubkeyX
          args.encrypted.ephemeralPubkeyYParity ≠ none := by
  refine ⟨isValidX_iff, ?_, ?_⟩
  · intro x yParity hvalid hparity
    obtain ⟨point, hfound, hcurve, hx, hy⟩ := k256.recoverPoint_valid hvalid hparity
    refine ⟨point, hfound, hcurve, hx, hy, ?_⟩
    intro other hother hx' hy'
    exact hother.unique hcurve (hx'.trans hx.symm) (hy'.trans hy.symm)
  · intro s s' ctx ts sender args hdeposit
    obtain ⟨_, -, h⟩ := bind_ok_iff.1 hdeposit
    obtain ⟨_, hcheck, -⟩ := bind_ok_iff.1 h
    simp only [Portal.checkDeposit, ok_iff, isCompressedYParity,
      Bool.or_eq_true, beq_iff_eq] at hcheck
    obtain ⟨_, -, _, -, _, -, _, -, _, -, _, hparity, _, hvalid, -⟩ := hcheck
    obtain ⟨point, hfound, -⟩ := k256.recoverPoint_valid hvalid hparity
    refine ⟨by rw [hfound]; rfl, ?_⟩
    intro g key hnonces hdecodes hnone
    rw [EcGroup.computeEcdhProof_eq_none hnonces hnone, hfound] at hdecodes
    cases hdecodes

theorem exponentiation_recovers : isValidX (Sym.num 1) = true ∧
    ∃ point, exponentiation.recoverPoint (Sym.num 1) 3 = some point ∧ OnCurve point := by
  have hvalid : isValidX (Sym.num 1) = true := by decide +kernel
  obtain ⟨point, hfound, hcurve, -⟩ :=
    (curve_point_validation_exact exponentiation).2.1 (Sym.num 1) 3 hvalid (.inr rfl)
  exact ⟨hvalid, point, hfound, hcurve⟩

end Secp256k1Lib

end TempoZones
