import Mathlib.Data.Fintype.Basic
import TempoZones.Lib.Abi

/-!
# EVM words, addresses and hashing

Addresses, byte strings, the block context of a call, and the 32-byte word. No finite word type has
a collision-free hash of unbounded inputs, so the word type `W` (`EvmWord`) is a parameter and
collision freedom is the assumption `CollisionFree W`: equal digests have equal preimages and no
digest is the zero word. The digests of `Sym` record their preimage (`Sym.collisionFree`).
-/

namespace TempoZones.Lib

/-- A 20-byte account address. -/
abbrev Address := Fin (2 ^ 160)

-- named, so that every module refers to the same proofs
instance instNeZeroAddress : NeZero (2 ^ 160) := ⟨by decide⟩

instance instNeZeroU32 : NeZero (2 ^ 32) := ⟨by decide⟩

instance instNeZeroU64 : NeZero (2 ^ 64) := ⟨by decide⟩

instance instNeZeroU256 : NeZero (2 ^ 256) := ⟨by decide⟩

instance instLawfulBEqAddress : LawfulBEq Address := inferInstance

/-- A byte string. -/
abbrev Bytes := List UInt8

/-- 32-byte words: `ofNat` embeds unsigned integers and addresses, `toNat` reads a word as an
unsigned integer, `keccak256` hashes an encoded byte string. -/
class EvmWord (W : Type) where
  ofNat : ℕ → W
  toNat : W → ℕ
  keccak256 : List (Chunk W) → W
  ofNat_injective : Function.Injective ofNat

export EvmWord (keccak256)

variable {W : Type} [EvmWord W]

instance instZeroWord : Zero W := ⟨EvmWord.ofNat 0⟩

/-- Equal digests have equal preimages, and no digest is the zero word. -/
structure CollisionFree (W : Type) [EvmWord W] : Prop where
  keccak_inj : ∀ {a b : List (Chunk W)}, keccak256 a = keccak256 b → a = b
  keccak_ne_zero : ∀ a : List (Chunk W), keccak256 a ≠ 0

namespace Codec

def bytes32 : Codec W W :=
  word id Function.injective_id

/-- Unsigned integer component. -/
def uint : Codec W ℕ :=
  word EvmWord.ofNat EvmWord.ofNat_injective

def address : Codec W Address :=
  word (fun a => EvmWord.ofNat a.val) fun _ _ h => Fin.ext (EvmWord.ofNat_injective h)

/-- `bytes` and `string` component. -/
def dynBytes : Codec W Bytes :=
  bytes EvmWord.ofNat EvmWord.ofNat_injective

end Codec

namespace Fields

variable {β : Type}

/-- Put a word in front; likewise an integer and an address. -/
def bytes32 (fs : Fields W β) : Fields W (W × β) := fs.static .bytes32 rfl

def uint (fs : Fields W β) : Fields W (ℕ × β) := fs.static .uint rfl

def address (fs : Fields W β) : Fields W (Address × β) := fs.static .address rfl

end Fields

/-- Explicit conversion to `uint64`, which keeps the low 64 bits. -/
def uint64 (n : ℕ) : ℕ := n % 2 ^ 64

/-- Explicit conversion to `uint128`, which keeps the low 128 bits. -/
def uint128 (n : ℕ) : ℕ := n % 2 ^ 128

theorem uint64_of_lt {n : ℕ} (h : n < 2 ^ 64) : uint64 n = n := Nat.mod_eq_of_lt h

def saturatingAdd (a b : ℕ) : ℕ := min (a + b) (2 ^ 64 - 1)

/-- `u64::checked_add`. -/
def checkedAddU64 (a b : ℕ) : Option ℕ := if a + b < 2 ^ 64 then some (a + b) else none

/-- Block context of a call. Number, timestamp and base fee are 64-bit header fields. -/
structure BlockEnv where
  number : ℕ
  timestamp : ℕ
  basefee : ℕ
  chainid : ℕ
  number_lt : number < 2 ^ 64
  timestamp_lt : timestamp < 2 ^ 64
  basefee_lt : basefee < 2 ^ 64

@[simp] theorem uint64_number (env : BlockEnv) : uint64 env.number = env.number :=
  uint64_of_lt env.number_lt

@[simp] theorem uint64_timestamp (env : BlockEnv) : uint64 env.timestamp = env.timestamp :=
  uint64_of_lt env.timestamp_lt

/-- Square-and-multiply over the low `fuel` bits of the exponent. -/
def modExpLoop : ℕ → ℕ → ℕ → ℕ → ℕ → ℕ
  | 0, _, _, _, acc => acc
  | fuel + 1, b, e, m, acc =>
    modExpLoop fuel (b * b % m) (e / 2) m (if e % 2 = 1 then acc * b % m else acc)

/-- The modular exponentiation precompile on 256-bit operands. -/
def modExp (b e m : ℕ) : ℕ := modExpLoop 256 (b % m) e m (1 % m)

/-! ## Symbolic words -/

/-- Words as terms: integers, and digests that record their preimage. -/
inductive Sym where
  | num (n : ℕ)
  | nil
  | cons (a b : Sym)
  | hash (preimage : Sym)
  deriving DecidableEq

namespace Sym

def ofBytes : Bytes → Sym
  | [] => nil
  | b :: bs => cons (num b.toNat) (ofBytes bs)

def ofChunk : Chunk Sym → Sym
  | .word w => cons (num 0) w
  | .raw bs => cons (num 1) (ofBytes bs)

def ofChunks : List (Chunk Sym) → Sym
  | [] => nil
  | c :: cs => cons (ofChunk c) (ofChunks cs)

theorem ofBytes_inj : ∀ {a b : Bytes}, ofBytes a = ofBytes b → a = b
  | [], [], _ => rfl
  | [], _ :: _, h => by cases h
  | _ :: _, [], h => by cases h
  | x :: a, y :: b, h => by
      simp only [ofBytes, cons.injEq, num.injEq] at h
      rw [UInt8.toNat_inj.1 h.1, ofBytes_inj h.2]

theorem ofChunk_inj {a b : Chunk Sym} (h : ofChunk a = ofChunk b) : a = b := by
  cases a with
  | word v =>
    cases b with
    | word w => simpa [ofChunk] using h
    | raw bs => simp [ofChunk] at h
  | raw as =>
    cases b with
    | word w => simp [ofChunk] at h
    | raw bs =>
      simp only [ofChunk, cons.injEq, true_and] at h
      rw [ofBytes_inj h]

theorem ofChunks_inj : ∀ {a b : List (Chunk Sym)}, ofChunks a = ofChunks b → a = b
  | [], [], _ => rfl
  | [], _ :: _, h => by cases h
  | _ :: _, [], h => by cases h
  | x :: a, y :: b, h => by
      simp only [ofChunks, cons.injEq] at h
      rw [ofChunk_inj h.1, ofChunks_inj h.2]

instance : EvmWord Sym where
  ofNat := num
  toNat
    | num n => n
    | hash _ => 1
    | _ => 0
  keccak256 cs := hash (ofChunks cs)
  ofNat_injective _ _ h := by cases h; rfl

theorem collisionFree : CollisionFree Sym where
  keccak_inj h := ofChunks_inj (Sym.hash.inj h)
  keccak_ne_zero _ h := by cases h

end Sym

end TempoZones.Lib
