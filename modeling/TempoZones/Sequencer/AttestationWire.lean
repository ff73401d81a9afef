import TempoZones.Primitives.Buffer
import TempoZones.Sequencer.Attestation

/-!
# Attestations on the wire

`attestation.rs` sends an attestation, alone or with a signature, as ABI bytes; a zero token
transition selects the layout without that field. The decoder tries the current layout first. It
does not check that a word fits its type: the low bits count.
-/

namespace TempoZones.Settle

open Lib List Function Option

abbrev U32 := Fin (2 ^ 32)
abbrev U64 := Fin (2 ^ 64)
abbrev U256 := Fin (2 ^ 256)

/-- `SettlementAttestation` with the widths of its members. -/
structure WireAttestation where
  zoneId : U32
  sequencerSetVersion : U64
  zoneHeight : U256
  withdrawalBatchIndex : U256
  verifier : Address
  tempoBlockNumber : U64
  anchorBlockNumber : U64
  anchorBlockHash : U256
  blockTransitionHash : U256
  depositQueueTransitionHash : U256
  tokenEnablementTransitionHash : U256
  withdrawalQueueHash : U256
  verifierConfigHash : U256
  deriving DecidableEq

structure WireSigned where
  attestation : WireAttestation
  signature : Bytes
  deriving DecidableEq

def WireAttestation.isLegacy (a : WireAttestation) : Bool :=
  decide (a.tokenEnablementTransitionHash = 0)

/-- One of the two wire formats: a word for each member it has. -/
structure Layout where
  size : ℕ
  words : WireAttestation → List ℕ
  read : List ℕ → Option WireAttestation
  size_le : size ≤ 13
  length_words : ∀ a, (words a).length = size
  words_lt : ∀ a, ∀ w ∈ words a, w < 2 ^ 256

namespace Layout

def current : Layout where
  size := 13
  words a := [a.zoneId, a.sequencerSetVersion, a.zoneHeight, a.withdrawalBatchIndex, a.verifier,
    a.tempoBlockNumber, a.anchorBlockNumber, a.anchorBlockHash, a.blockTransitionHash,
    a.depositQueueTransitionHash, a.tokenEnablementTransitionHash, a.withdrawalQueueHash,
    a.verifierConfigHash]
  read
    | [zone, version, height, index, verifier, tempo, anchor, hash, block, deposits, tokens,
        withdrawals, config] => some ⟨.ofNat _ zone, .ofNat _ version, .ofNat _ height,
          .ofNat _ index, .ofNat _ verifier, .ofNat _ tempo, .ofNat _ anchor, .ofNat _ hash,
          .ofNat _ block, .ofNat _ deposits, .ofNat _ tokens, .ofNat _ withdrawals,
          .ofNat _ config⟩
    | _ => none
  size_le := by decide
  length_words _ := rfl
  words_lt a := by
    simp only [mem_cons, not_mem_nil, or_false, forall_eq_or_imp, forall_eq]
    omega

/-- `as_legacy` and `from_legacy`: the token transition is left out and read back as zero. -/
def legacy : Layout where
  size := 12
  words a := (current.words a).eraseIdx 10
  read ws := current.read (ws.insertIdx 10 0)
  size_le := by decide
  length_words _ := rfl
  words_lt a w hw := current.words_lt a w ((eraseIdx_sublist _ _).subset hw)

variable (l : Layout)

def abiEncode (a : WireAttestation) : Bytes := encodeWords (l.words a)

def abiDecode (buf : Bytes) : Option WireAttestation := (wordsAt buf 0 l.size).bind l.read

/-- The words of the signed tuple: the attestation, the offset of the signature and its length. -/
def signedWords (s : WireSigned) : List ℕ :=
  l.words s.attestation ++ [32 * (l.size + 1), s.signature.length]

def tuple (s : WireSigned) : Bytes :=
  encodeWords (l.signedWords s) ++ (s.signature ++ Codec.padding s.signature.length)

/-- The signed tuple is dynamic, so the message starts with its offset. -/
def abiEncodeSigned (s : WireSigned) : Bytes := beBytes 32 32 ++ l.tuple s

def decodeTuple (tuple : Bytes) : Option WireSigned := do
  let attestation ← l.abiDecode tuple
  let offset ← wordAt tuple (32 * l.size)
  let len ← wordAt tuple offset
  let signature ← slice tuple (offset + 32) len
  return ⟨attestation, signature⟩

def abiDecodeSigned (buf : Bytes) : Option WireSigned := do
  let offset ← wordAt buf 0
  l.decodeTuple (buf.drop offset)

end Layout

open Layout

def WireAttestation.encode (a : WireAttestation) : Bytes :=
  if a.isLegacy then legacy.abiEncode a else current.abiEncode a

def WireAttestation.decode (buf : Bytes) : Option WireAttestation :=
  (current.abiDecode buf).or (legacy.abiDecode buf)

def WireSigned.encode (s : WireSigned) : Bytes :=
  if s.attestation.isLegacy then legacy.abiEncodeSigned s
  else current.abiEncodeSigned s

def WireSigned.decode (buf : Bytes) : Option WireSigned :=
  (current.abiDecodeSigned buf).or (legacy.abiDecodeSigned buf)

/-! ## One layout -/

namespace Layout

theorem current_read (a : WireAttestation) : current.read (current.words a) = some a := by
  simp [current]

theorem legacy_read {a : WireAttestation} (h : a.isLegacy = true) :
    legacy.read (legacy.words a) = some a := by
  have hzero : a.tokenEnablementTransitionHash = 0 := of_decide_eq_true h
  have hwords : ((current.words a).eraseIdx 10).insertIdx 10 0 = current.words a := by
    simp [current, hzero, eraseIdx, insertIdx]
  rw [legacy]
  simp only [hwords, current_read]

variable (l : Layout)

theorem tuple_eq (s : WireSigned) : l.tuple s = encodeWords (l.words s.attestation) ++
    (beBytes 32 (32 * (l.size + 1)) ++ (beBytes 32 s.signature.length ++
      (s.signature ++ Codec.padding s.signature.length))) := by
  simp [tuple, signedWords, encodeWords]

theorem abiDecode_abiEncode (a : WireAttestation) (after : Bytes) :
    l.abiDecode (l.abiEncode a ++ after) = l.read (l.words a) := by
  have h := @wordsAt_append after (l.words a) [] (l.words_lt a)
  rw [l.length_words] at h
  exact congrArg (bind · l.read) h

theorem abiDecodeSigned_eq (l' : Layout) (s : WireSigned) :
    l'.abiDecodeSigned (l.abiEncodeSigned s) = l'.decodeTuple (l.tuple s) := by
  have hoffset : wordAt (beBytes 32 32 ++ l.tuple s) 0 = some 32 :=
    wordAt_append (by decide) [] (l.tuple s)
  rw [abiDecodeSigned, abiEncodeSigned, hoffset]
  show l'.decodeTuple (drop 32 _) = _
  rw [drop_left' (length_beBytes 32 32)]

/-- The word after the attestation is the offset, the one after it the length. -/
theorem wordAt_tuple {s : WireSigned} (hsize : s.signature.length < 2 ^ 256) :
    wordAt (l.tuple s) (32 * l.size) = some (32 * (l.size + 1)) ∧
      wordAt (l.tuple s) (32 * (l.size + 1)) = some s.signature.length := by
  have hlength : (encodeWords (l.words s.attestation)).length = 32 * l.size := by
    rw [length_encodeWords, l.length_words]
  have hle := l.size_le
  rw [tuple_eq]
  constructor
  · rw [← hlength]
    exact wordAt_append (by omega) _ _
  · rw [← append_assoc]
    have h := wordAt_append hsize (encodeWords (l.words s.attestation) ++
      beBytes 32 (32 * (l.size + 1))) (s.signature ++ Codec.padding s.signature.length)
    rwa [length_append, hlength, length_beBytes] at h

theorem decodeTuple_tuple {s : WireSigned} (hsize : s.signature.length < 2 ^ 256)
    (hread : l.read (l.words s.attestation) = some s.attestation) :
    l.decodeTuple (l.tuple s) = some s := by
  obtain ⟨hoffset, hlen⟩ := l.wordAt_tuple hsize
  have hattestation : l.abiDecode (l.tuple s) = some s.attestation := by
    rw [tuple_eq]
    exact (l.abiDecode_abiEncode s.attestation _).trans hread
  have hslice := slice_append (encodeWords (l.signedWords s)) s.signature
    (Codec.padding s.signature.length)
  rw [← tuple, length_encodeWords, signedWords, length_append, l.length_words] at hslice
  simp only [decodeTuple, hattestation, hoffset, hlen, bind_some, bind_eq_bind]
  rw [show 32 * (l.size + 1) + 32 = 32 * (l.size + [32 * (l.size + 1), s.signature.length].length)
    from rfl, hslice]
  rfl

end Layout

/-! ## A legacy message under the current layout -/

namespace WireSigned

variable {s : WireSigned}

/-- The current layout takes the length of a legacy signature for its offset. For 65 bytes it then
reads the length across the zone height and the first byte of the batch index. -/
theorem wordAt_legacy (s : WireSigned) : wordAt (legacy.tuple s) 65 =
    some (s.attestation.zoneHeight.val % 256 ^ 31 * 256 +
      s.attestation.withdrawalBatchIndex.val / 256 ^ 31 % 256) := by
  let a := s.attestation
  have hsplit : ∃ after, legacy.tuple s =
      (beBytes 32 a.zoneId ++ beBytes 32 a.sequencerSetVersion ++
        [UInt8.ofNat (a.zoneHeight / 256 ^ 31)]) ++
      ((beBytes 31 a.zoneHeight ++ [UInt8.ofNat (a.withdrawalBatchIndex / 256 ^ 31)]) ++ after) := by
    refine ⟨beBytes 31 a.withdrawalBatchIndex ++ (encodeWords
      ((legacy.signedWords s).drop 4) ++ (s.signature ++ Codec.padding s.signature.length)),
      ?_⟩
    simp [tuple, signedWords, legacy, current, encodeWords, beBytes_succ 31, eraseIdx, a]
  obtain ⟨after, hsplit⟩ := hsplit
  have hslice := slice_append (beBytes 32 a.zoneId ++ beBytes 32 a.sequencerSetVersion ++
    [UInt8.ofNat (a.zoneHeight / 256 ^ 31)])
    (beBytes 31 a.zoneHeight ++ [UInt8.ofNat (a.withdrawalBatchIndex / 256 ^ 31)]) after
  simp only [length_append, length_beBytes, length_singleton] at hslice
  rw [wordAt, hsplit, hslice, map_some, natOfBytes_append, natOfBytes_beBytes]
  simp [natOfBytes, a]

/-- What the current layout takes for the attestation: the fields after the token transition move up,
and the offset of the signature is read as the last one. -/
def shifted (a : WireAttestation) : WireAttestation :=
  { a with
    tokenEnablementTransitionHash := a.withdrawalQueueHash
    withdrawalQueueHash := a.verifierConfigHash
    verifierConfigHash := 416 }

theorem abiDecode_legacy (s : WireSigned) :
    current.abiDecode (legacy.tuple s) = some (shifted s.attestation) := by
  have hwords : ∀ w ∈ legacy.words s.attestation ++ [416], w < 2 ^ 256 := by
    intro w hw
    rcases mem_append.1 hw with hword | hoffset
    · exact legacy.words_lt _ w hword
    · rw [mem_singleton.1 hoffset]
      decide
  have h := @wordsAt_append (beBytes 32 s.signature.length ++ (s.signature ++
    Codec.padding s.signature.length)) (legacy.words s.attestation ++ [416]) [] hwords
  have hread : current.read (legacy.words s.attestation ++ [416]) = some (shifted s.attestation) := by
    simp [legacy, current, eraseIdx, shifted]
  rw [← hread]
  refine (congrArg (bind · current.read) ?_).trans (bind_some _ _)
  rw [← h, tuple_eq]
  simp only [encodeWords, flatMap_append, append_assoc]
  rfl

/-- A legacy message is separated from the current layout if the length read at the wrong place, the
word at the byte with the number of the signature's length, goes beyond the end of the message. -/
def Separated (s : WireSigned) : Prop :=
  s.attestation.isLegacy = true → ∀ len, wordAt (legacy.tuple s) s.signature.length = some len →
    416 + (Codec.padding s.signature.length).length < len

/-- For 65 bytes, zone height and batch index decide. -/
theorem separated_iff (hsignature : s.signature.length = 65) :
    s.Separated ↔ (s.attestation.isLegacy = true → 447 < s.attestation.zoneHeight.val % 256 ^ 31 * 256 +
      s.attestation.withdrawalBatchIndex.val / 256 ^ 31 % 256) := by
  simp only [Separated, hsignature, wordAt_legacy, Option.some.injEq, forall_eq']
  rfl

theorem decodeTuple_legacy (hsize : s.signature.length < 2 ^ 256)
    (hlegacy : s.attestation.isLegacy = true) :
    (s.Separated → current.decodeTuple (legacy.tuple s) = none) ∧
      (¬ s.Separated → ∃ signature,
        current.decodeTuple (legacy.tuple s) = some ⟨shifted s.attestation, signature⟩) := by
  have hoffset : wordAt (legacy.tuple s) (32 * current.size) = some s.signature.length :=
    (legacy.wordAt_tuple hsize).2
  have hlength : (legacy.tuple s).length = 448 + s.signature.length +
      (Codec.padding s.signature.length).length := by
    simp [tuple, signedWords, legacy, current, eraseIdx, Nat.add_assoc]
  simp only [Separated, hlegacy, forall_const, decodeTuple, hoffset, abiDecode_legacy,
    bind_eq_bind, bind_some]
  cases wordAt (legacy.tuple s) s.signature.length with
  | none => simp
  | some len =>
    simp only [Option.some.injEq, forall_eq', bind_some]
    constructor
    · intro hout
      rw [slice, if_neg (by omega)]
      rfl
    · intro hin
      rw [slice, if_pos (by omega)]
      exact ⟨_, rfl⟩

/-- A message that is not separated is read with its fields shifted. -/
theorem decode_shifted (hsize : s.signature.length < 2 ^ 256) (h : ¬ s.Separated) :
    ∃ signature, decode s.encode = some ⟨shifted s.attestation, signature⟩ := by
  have hlegacy : s.attestation.isLegacy = true := (Classical.not_imp.1 h).1
  obtain ⟨signature, hread⟩ := (decodeTuple_legacy hsize hlegacy).2 h
  refine ⟨signature, ?_⟩
  rw [encode, if_pos hlegacy, decode, abiDecodeSigned_eq, hread, some_or]

theorem shifted_ne {a : WireAttestation} (h : a.isLegacy = true) : shifted a ≠ a := by
  intro heq
  have htokens := congrArg WireAttestation.tokenEnablementTransitionHash heq
  have hwithdrawals := congrArg WireAttestation.withdrawalQueueHash heq
  have hconfig := congrArg WireAttestation.verifierConfigHash heq
  have hzero : a.verifierConfigHash = 0 := hwithdrawals.trans (htokens.trans (of_decide_eq_true h))
  exact absurd (hconfig.trans hzero) (by decide : (416 : U256) ≠ 0)

theorem decode_encode_iff (hsize : s.signature.length < 2 ^ 256) :
    decode s.encode = some s ↔ s.Separated := by
  constructor
  · intro hread
    by_contra h
    obtain ⟨signature, hshifted⟩ := decode_shifted hsize h
    have hsame := Option.some.inj (hshifted.symm.trans hread)
    exact shifted_ne (Classical.not_imp.1 h).1 (congrArg WireSigned.attestation hsame)
  · intro h
    unfold encode decode
    split
    · next hlegacy =>
      rw [abiDecodeSigned_eq, abiDecodeSigned_eq, (decodeTuple_legacy hsize hlegacy).1 h,
        none_or]
      exact legacy.decodeTuple_tuple hsize (legacy_read hlegacy)
    · rw [abiDecodeSigned_eq, current.decodeTuple_tuple hsize (current_read _), some_or]

end WireSigned

open WireSigned

theorem WireAttestation.decode_encode (a : WireAttestation) : decode a.encode = some a := by
  unfold encode decode
  split
  · next hlegacy =>
    -- twelve words are too short for the current layout
    have hshort : current.abiDecode (legacy.abiEncode a) = none := by
      refine bind_eq_none_iff.2 fun ws hws => ?_
      have hle := le_of_wordsAt hws
      rw [abiEncode, length_encodeWords, legacy.length_words] at hle
      exact absurd hle (by decide)
    rw [hshort, none_or, ← legacy_read hlegacy]
    simpa using legacy.abiDecode_abiEncode a []
  have h := current.abiDecode_abiEncode a []
  rw [append_nil, current_read] at h
  rw [h, some_or]

/-! ## The digest -/

variable {W : Type}

/-- The statement a message carries, with the words that its 32 bytes stand for. -/
def WireAttestation.statement (word : U256 → W) (a : WireAttestation) : SettlementAttestation W where
  zoneId := a.zoneId
  sequencerSetVersion := a.sequencerSetVersion
  zoneHeight := a.zoneHeight
  withdrawalBatchIndex := a.withdrawalBatchIndex
  verifier := a.verifier
  tempoBlockNumber := a.tempoBlockNumber
  anchorBlockNumber := a.anchorBlockNumber
  anchorBlockHash := word a.anchorBlockHash
  blockTransitionHash := word a.blockTransitionHash
  depositQueueTransitionHash := word a.depositQueueTransitionHash
  tokenEnablementTransitionHash := word a.tokenEnablementTransitionHash
  withdrawalQueueHash := word a.withdrawalQueueHash
  verifierConfigHash := word a.verifierConfigHash

theorem WireAttestation.statement_injective {word : U256 → W} (hword : Injective word) :
    Injective (statement word) := by
  rintro ⟨⟩ ⟨⟩ h
  simp only [statement, SettlementAttestation.mk.injEq, hword.eq_iff, Fin.val_inj] at h
  simp [h]

variable [EvmWord W] [DecidableEq W]

theorem SettlementAttestation.structHash_injective (hc : CollisionFree W) :
    Injective (structHash : SettlementAttestation W → W) := by
  -- with its type hash one struct has thirteen words and the other fourteen
  have hlayouts : ∀ {x y}, (legacyCodec.encode (W := W) x).length ≠
      (TempoZones.SettlementAttestation.codec.encode (W := W) y).length := by
    intro x y
    rw [Codec.length_eq _ rfl, Codec.length_eq _ rfl]
    exact (by decide : 13 ≠ 14)
  intro a b h
  unfold structHash at h
  split at h
  · next ha =>
    split at h
    · next hb =>
      have htokens : a.tokenEnablementTransitionHash = b.tokenEnablementTransitionHash :=
        (of_decide_eq_true ha).trans (of_decide_eq_true hb).symm
      have h' := Codec.encode_injective _ (hc.keccak_inj h)
      cases a
      cases b
      simp_all
    · exact absurd (congrArg length (hc.keccak_inj h)) hlayouts
  split at h
  · exact absurd (congrArg length (hc.keccak_inj h)).symm hlayouts
  have h' := Codec.encode_injective _ (hc.keccak_inj h)
  cases a
  cases b
  simp_all

theorem AttestationDomain.settlementDigest_injective (hc : CollisionFree W)
    (d : AttestationDomain) : Injective (d.settlementDigest : SettlementAttestation W → W) := by
  intro a b h
  have h' := hc.keccak_inj h
  simp only [cons.injEq, Chunk.word.injEq, and_true, true_and] at h'
  exact SettlementAttestation.structHash_injective hc h'

def WireSigned.recoverSigner (sg : Signing W) (word : U256 → W) (domain : AttestationDomain)
    (s : WireSigned) : Option Address :=
  SignedSettlementAttestation.recoverSigner sg domain ⟨s.attestation.statement word, s.signature⟩

def WireSigned.sign (sg : Signing W) (word : U256 → W) (a : WireAttestation)
    (domain : AttestationDomain) (key : sg.Key) : WireSigned :=
  ⟨a, (SignedSettlementAttestation.sign sg (a.statement word) domain key).signature⟩

/-- **Attestation messages.** Plain messages of both layouts are read back, and signed ones exactly if
they are separated: for 65 bytes of signature, if zone height and batch index put a length beyond
the message. The signer of a message that is read back is recovered. With a collision-free hash the
digest determines the attestation. -/
theorem attestation_messages_round_trip (hc : CollisionFree W) (sg : Signing W)
    {word : U256 → W} (hword : Injective word) (domain : AttestationDomain) :
    (∀ a : WireAttestation, WireAttestation.decode a.encode = some a) ∧
      (∀ s : WireSigned, s.signature.length < 2 ^ 256 →
        (decode s.encode = some s ↔ s.Separated)) ∧
      (∀ s : WireSigned, s.signature.length = 65 → (s.Separated ↔ (s.attestation.isLegacy = true →
        447 < s.attestation.zoneHeight.val % 256 ^ 31 * 256 +
          s.attestation.withdrawalBatchIndex.val / 256 ^ 31 % 256))) ∧
      (∀ a (key : sg.Key), (sign sg word a domain key).Separated →
        (decode (sign sg word a domain key).encode).bind
          (recoverSigner sg word domain) = some (sg.address key)) ∧
      Injective fun a : WireAttestation => domain.settlementDigest (a.statement word) := by
  refine ⟨WireAttestation.decode_encode, fun s => decode_encode_iff, fun s => separated_iff, ?_, ?_⟩
  · intro a key hseparated
    have hlength : (sign sg word a domain key).signature.length = 65 := sg.length_sign key _
    rw [(decode_encode_iff (by omega)).2 hseparated]
    exact sg.recover_sign key _
  · exact (domain.settlementDigest_injective hc).comp (WireAttestation.statement_injective hword)

namespace Example

/-- A legacy message for the block at a height. -/
def legacyAt (height : U256) : WireSigned :=
  ⟨⟨1, 1, height, 1, 1, 1, 1, 1, 1, 1, 0, 1, 1⟩, replicate 65 7⟩

def portalSigning : Signing Sym where
  Key := Unit
  address _ := 1
  sign _ _ := replicate 65 7
  recover _ _ := some 1
  recover_sign _ _ := rfl
  length_sign _ _ := rfl

/-- The second block's message is read back, and its signer is recovered. -/
theorem legacy_second_block_read : decode (legacyAt 2).encode = some (legacyAt 2) ∧
    (decode (legacyAt 2).encode).bind (recoverSigner portalSigning (fun n => .num n) ⟨1, 1, 1⟩) =
      some 1 := by
  have hword : Injective fun n : U256 => Sym.num n := fun a b h => Fin.ext (Sym.num.inj h)
  obtain ⟨-, hread, hseparated, hsigner, -⟩ :=
    attestation_messages_round_trip Sym.collisionFree portalSigning hword ⟨1, 1, 1⟩
  have h : (legacyAt 2).Separated := (hseparated (legacyAt 2) rfl).2 fun _ => by decide
  exact ⟨(hread (legacyAt 2) (by decide)).2 h, hsigner (legacyAt 2).attestation () h⟩

/-- The first block's message is read as one of the current layout with 256 bytes of signature. -/
theorem legacy_first_block_misread :
    (decode (legacyAt 1).encode).map
        (fun s => (s.attestation.isLegacy, s.signature.length)) = some (false, 256) ∧
      decode (legacyAt 1).encode ≠ some (legacyAt 1) := by
  decide +kernel

end Example

end TempoZones.Settle
