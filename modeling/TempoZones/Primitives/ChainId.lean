import Mathlib.Algebra.Group.Nat.Defs
import TempoZones.Lib.Outcome

/-!
# Zone chain ids

`zone_chain_id` and `decode_zone_chain_id` of `primitives/src/constants.rs`. The two production
parents have a range of small ids each; every other parent shares its zones' ids by the high 32
bits. On numbers the encoding is `Supported.encoded`, three disjoint ranges; the decoder re-encodes
what it reads, so it accepts nothing else.
-/

namespace TempoZones.ChainId

open Lib Nat

def MAINNET_CHAIN_ID : UInt64 := 4217
def MODERATO_CHAIN_ID : UInt64 := 42431
def ZONE_CHAIN_ID_BASE : UInt64 := 421700000
def ZONE_CHAIN_ID_RANGE : UInt64 := 1002610000
def ZONE_CHAIN_ID_BASE_TESTNET : UInt64 := 1424310000
def ZONE_CHAIN_ID_RANGE_TESTNET : UInt64 := 723173648
def MAX_GENERIC_PARENT_CHAIN_ID : UInt64 := ((1 : UInt64) <<< 20) - 2

inductive ZoneChainIdError where
  | zoneIdOutOfRange (parentChainId : UInt64) (zoneId : UInt32)
  | invalidParentChainId (parentChainId : UInt64)
  | invalidZoneChainId (chainId : UInt64)
  deriving DecidableEq

def validateChainId (parentChainId : UInt64) (zoneId : UInt32) : Except ZoneChainIdError Unit := do
  require (¬ (parentChainId = 0 ∨ parentChainId > MAX_GENERIC_PARENT_CHAIN_ID))
    (.invalidParentChainId parentChainId)
  require (¬ ((parentChainId = MAINNET_CHAIN_ID ∧ zoneId.toUInt64 ≥ ZONE_CHAIN_ID_RANGE) ∨
    (parentChainId = MODERATO_CHAIN_ID ∧ zoneId.toUInt64 ≥ ZONE_CHAIN_ID_RANGE_TESTNET)))
    (.zoneIdOutOfRange parentChainId zoneId)

/-- The id that `zone_chain_id` computes for a validated pair. -/
def packChainId (parentChainId : UInt64) (zoneId : UInt32) : UInt64 :=
  if parentChainId = MAINNET_CHAIN_ID then ZONE_CHAIN_ID_BASE + zoneId.toUInt64
  else if parentChainId = MODERATO_CHAIN_ID then ZONE_CHAIN_ID_BASE_TESTNET + zoneId.toUInt64
  else (parentChainId <<< 32) ||| zoneId.toUInt64

def zoneChainId (parentChainId : UInt64) (zoneId : UInt32) : Except ZoneChainIdError UInt64 := do
  validateChainId parentChainId zoneId
  pure (packChainId parentChainId zoneId)

/-- The pair that `decode_zone_chain_id` reads off an id before it checks it. -/
def splitChainId (chainId : UInt64) : Option (UInt64 × UInt32) :=
  if ZONE_CHAIN_ID_BASE ≤ chainId ∧ chainId < ZONE_CHAIN_ID_BASE + ZONE_CHAIN_ID_RANGE then
    some (MAINNET_CHAIN_ID, (chainId - ZONE_CHAIN_ID_BASE).toUInt32)
  else if ZONE_CHAIN_ID_BASE_TESTNET ≤ chainId ∧
      chainId < ZONE_CHAIN_ID_BASE_TESTNET + ZONE_CHAIN_ID_RANGE_TESTNET then
    some (MODERATO_CHAIN_ID, (chainId - ZONE_CHAIN_ID_BASE_TESTNET).toUInt32)
  else if chainId ≥ (1 : UInt64) <<< 32 then some (chainId >>> 32, chainId.toUInt32)
  else none

def decodeZoneChainId (chainId : UInt64) : Except ZoneChainIdError (UInt64 × UInt32) :=
  match splitChainId chainId with
  | none => .error (.invalidZoneChainId chainId)
  | some (parentChainId, zoneId) =>
    match zoneChainId parentChainId zoneId with
    | .ok encoded =>
      if encoded = chainId then .ok (parentChainId, zoneId)
      else .error (.invalidZoneChainId chainId)
    | .error _ => .error (.invalidZoneChainId chainId)

/-! ## The encoding on numbers -/

/-- Parents and zone ids that `zone_chain_id` accepts. -/
structure Supported (parentChainId : UInt64) (zoneId : UInt32) : Prop where
  pos : 0 < parentChainId.toNat
  le : parentChainId.toNat ≤ 2 ^ 20 - 2
  mainnet : parentChainId.toNat = 4217 → zoneId.toNat < 1002610000
  moderato : parentChainId.toNat = 42431 → zoneId.toNat < 723173648

def encoded (parent zone : ℕ) : ℕ :=
  if parent = 4217 then 421700000 + zone
  else if parent = 42431 then 1424310000 + zone
  else parent * 2 ^ 32 + zone

theorem eq_mainnet_iff (p : UInt64) : p = MAINNET_CHAIN_ID ↔ p.toNat = 4217 := by
  rw [← UInt64.toNat_inj]
  rfl

theorem eq_moderato_iff (p : UInt64) : p = MODERATO_CHAIN_ID ↔ p.toNat = 42431 := by
  rw [← UInt64.toNat_inj]
  rfl

theorem validateChainId_ok_iff (p : UInt64) (z : UInt32) :
    validateChainId p z = .ok () ↔ Supported p z := by
  have hzero : p = 0 ↔ p.toNat = 0 := by
    rw [← UInt64.toNat_inj]
    rfl
  have hmax : MAX_GENERIC_PARENT_CHAIN_ID.toNat = 2 ^ 20 - 2 := by decide
  have hrange : ZONE_CHAIN_ID_RANGE.toNat = 1002610000 := rfl
  have hrange' : ZONE_CHAIN_ID_RANGE_TESTNET.toNat = 723173648 := rfl
  simp only [validateChainId, require_bind_ok_iff, require_ok_iff, eq_mainnet_iff,
    eq_moderato_iff, hzero, gt_iff_lt, ge_iff_le, UInt64.lt_iff_toNat_lt, UInt64.le_iff_toNat_le,
    UInt32.toNat_toUInt64, hmax, hrange, hrange']
  constructor
  · rintro ⟨hparent, hzone⟩
    exact ⟨by omega, by omega, by omega, by omega⟩
  · rintro ⟨hpos, hle, hmainnet, hmoderato⟩
    constructor <;> omega

theorem toNat_packed {p : UInt64} {z : UInt32} (h : p.toNat < 2 ^ 32) :
    ((p <<< 32) ||| z.toUInt64).toNat = p.toNat * 2 ^ 32 + z.toNat := by
  have hz : z.toNat < 2 ^ 32 := z.toNat_lt
  have hshift : (p <<< 32).toNat = p.toNat <<< 32 := by
    rw [UInt64.toNat_shiftLeft]
    exact mod_eq_of_lt (by rw [shiftLeft_eq]; change p.toNat * 2 ^ 32 < 2 ^ 64; omega)
  rw [UInt64.toNat_or, hshift, UInt32.toNat_toUInt64, ← shiftLeft_add_eq_or_of_lt hz,
    shiftLeft_eq]

theorem toNat_packChainId {p : UInt64} {z : UInt32} (h : Supported p z) :
    (packChainId p z).toNat = encoded p.toNat z.toNat := by
  have hz : z.toNat < 2 ^ 32 := z.toNat_lt
  have hle := h.le
  unfold packChainId encoded
  simp only [eq_mainnet_iff, eq_moderato_iff]
  split
  · rw [UInt64.toNat_add, UInt32.toNat_toUInt64]
    exact mod_eq_of_lt (by change 421700000 + z.toNat < 2 ^ 64; omega)
  split
  · rw [UInt64.toNat_add, UInt32.toNat_toUInt64]
    exact mod_eq_of_lt (by change 1424310000 + z.toNat < 2 ^ 64; omega)
  · exact toNat_packed (by omega)

theorem zoneChainId_ok_iff (p : UInt64) (z : UInt32) (id : UInt64) :
    zoneChainId p z = .ok id ↔ Supported p z ∧ id.toNat = encoded p.toNat z.toNat := by
  simp only [zoneChainId, ok_iff]
  constructor
  · rintro ⟨_, hvalid, rfl⟩
    have hs := (validateChainId_ok_iff p z).1 hvalid
    exact ⟨hs, toNat_packChainId hs⟩
  · rintro ⟨hs, hid⟩
    refine ⟨(), (validateChainId_ok_iff p z).2 hs, ?_⟩
    rw [← UInt64.toNat_inj, toNat_packChainId hs, hid]

/-! ## Reading the pair off -/

theorem splitChainId_of_supported {p : UInt64} {z : UInt32} {id : UInt64} (h : Supported p z)
    (hid : id.toNat = encoded p.toNat z.toNat) : splitChainId id = some (p, z) := by
  have hz : z.toNat < 2 ^ 32 := z.toNat_lt
  have hbase : ZONE_CHAIN_ID_BASE.toNat = 421700000 := rfl
  have hend : (ZONE_CHAIN_ID_BASE + ZONE_CHAIN_ID_RANGE).toNat = 1424310000 := rfl
  have hbase' : ZONE_CHAIN_ID_BASE_TESTNET.toNat = 1424310000 := rfl
  have hend' : (ZONE_CHAIN_ID_BASE_TESTNET + ZONE_CHAIN_ID_RANGE_TESTNET).toNat = 2147483648 := rfl
  have hhigh : ((1 : UInt64) <<< 32).toNat = 2 ^ 32 := by decide
  obtain ⟨hpos, hle, hmainnet, hmoderato⟩ := h
  unfold encoded at hid
  simp only [splitChainId, ge_iff_le, UInt64.lt_iff_toNat_lt, UInt64.le_iff_toNat_le, hbase, hend,
    hbase', hend', hhigh]
  -- the range of the id tells the parents apart; within a range the zone is the offset
  by_cases hm : p.toNat = 4217
  · rw [if_pos hm] at hid
    have hlt := hmainnet hm
    rw [if_pos (by omega), Option.some.injEq, Prod.mk.injEq]
    refine ⟨((eq_mainnet_iff p).2 hm).symm, ?_⟩
    rw [← UInt32.toNat_inj, UInt64.toNat_toUInt32, UInt64.toNat_sub_of_le _ _ (by
      rw [UInt64.le_iff_toNat_le]; omega), hid, hbase]
    omega
  rw [if_neg hm] at hid
  by_cases ht : p.toNat = 42431
  · rw [if_pos ht] at hid
    have hlt := hmoderato ht
    rw [if_neg (by omega), if_pos (by omega), Option.some.injEq, Prod.mk.injEq]
    refine ⟨((eq_moderato_iff p).2 ht).symm, ?_⟩
    rw [← UInt32.toNat_inj, UInt64.toNat_toUInt32, UInt64.toNat_sub_of_le _ _ (by
      rw [UInt64.le_iff_toNat_le]; omega), hid, hbase']
    omega
  rw [if_neg ht] at hid
  rw [if_neg (by omega), if_neg (by omega), if_pos (by omega), Option.some.injEq, Prod.mk.injEq]
  constructor
  · rw [← UInt64.toNat_inj, UInt64.toNat_shiftRight, hid, shiftRight_eq_div_pow]
    change (p.toNat * 2 ^ 32 + z.toNat) / 2 ^ 32 = p.toNat
    omega
  · rw [← UInt32.toNat_inj, UInt64.toNat_toUInt32, hid]
    omega

theorem decodeZoneChainId_ok_iff (id p : UInt64) (z : UInt32) :
    decodeZoneChainId id = .ok (p, z) ↔ zoneChainId p z = .ok id := by
  constructor
  · intro h
    unfold decodeZoneChainId at h
    split at h
    · cases h
    split at h
    · next encoded henc =>
      split at h
      · next heq =>
        cases h
        rw [henc, heq]
      · cases h
    · cases h
  · intro h
    obtain ⟨hs, hid⟩ := (zoneChainId_ok_iff p z id).1 h
    rw [decodeZoneChainId, splitChainId_of_supported hs hid]
    simp only [h, if_true]

theorem lt_encoded (p : UInt64) (z : UInt32) (hpos : 0 < p.toNat) :
    2 ^ 20 < encoded p.toNat z.toNat := by
  unfold encoded
  split
  · omega
  · split <;> omega

/-! ## Main result -/

/-- **Chain ids.** `zone_chain_id` accepts exactly the supported pairs. Decoding inverts it, and an
id that decodes is the id of what it decodes to. So the ids of two pairs differ, and no zone id is
the id of a supported parent. -/
theorem zone_chain_ids_exact :
    (∀ p z, (∃ id, zoneChainId p z = .ok id) ↔ Supported p z) ∧
    (∀ p z id, zoneChainId p z = .ok id → decodeZoneChainId id = .ok (p, z)) ∧
    (∀ id p z, decodeZoneChainId id = .ok (p, z) → zoneChainId p z = .ok id) ∧
    (∀ p z p' z' id id', (p, z) ≠ (p', z') → zoneChainId p z = .ok id →
      zoneChainId p' z' = .ok id' → id ≠ id') ∧
    ∀ p z id p' z', zoneChainId p z = .ok id → Supported p' z' → id ≠ p' := by
  have hdecode : ∀ p z id, zoneChainId p z = .ok id → decodeZoneChainId id = .ok (p, z) :=
    fun p z id h => (decodeZoneChainId_ok_iff id p z).2 h
  refine ⟨?_, hdecode, fun id p z h => (decodeZoneChainId_ok_iff id p z).1 h, ?_, ?_⟩
  · intro p z
    constructor
    · rintro ⟨id, h⟩
      exact ((zoneChainId_ok_iff p z id).1 h).1
    · intro hs
      exact ⟨packChainId p z, (zoneChainId_ok_iff p z _).2 ⟨hs, toNat_packChainId hs⟩⟩
  · rintro p z p' z' id id' hne h h' rfl
    have hpair := (hdecode p z id h).symm.trans (hdecode p' z' id h')
    exact hne (Except.ok.inj hpair)
  · rintro p z id p' z' h hs' rfl
    obtain ⟨hs, hid⟩ := (zoneChainId_ok_iff p z id).1 h
    have hlt := lt_encoded p z hs.pos
    have hle := hs'.le
    omega

/-- Zone 7 of mainnet, which has no id in common with zone 7 of a generic parent. -/
theorem zone_chain_ids_example :
    zoneChainId 4217 7 = .ok 421700007 ∧ decodeZoneChainId 421700007 = .ok (4217, 7) ∧
      ∀ id, zoneChainId 1337 7 = .ok id → (421700007 : UInt64) ≠ id := by
  obtain ⟨-, hdecode, -, hdistinct, -⟩ := zone_chain_ids_exact
  have hmainnet : zoneChainId 4217 7 = .ok 421700007 := by rfl
  refine ⟨hmainnet, hdecode _ _ _ hmainnet, ?_⟩
  intro id h
  exact hdistinct 4217 7 1337 7 421700007 id (by decide) hmainnet h

end TempoZones.ChainId
