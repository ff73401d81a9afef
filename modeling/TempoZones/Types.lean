import TempoZones.Lib.Evm
import TempoZones.Lib.HashChain

/-!
# Protocol types and their hash commitments

The structures of `IZone.sol` that cross between Tempo and the zone, with the ABI encodings that are
hashed: withdrawals and their queue hash, the two kinds of deposit-queue entries, and enabled
tokens. Under a collision-free hash each link binds its element and the preceding digest
(`withdrawal_binding`, `queueEntry_binding`, `enabledToken_binding`).
-/

namespace TempoZones

open Lib EvmWord Codec

inductive Role where
  | none
  | sequencer
  | account
  | callbackGateway
  | pauseGuardian
  deriving DecidableEq, Repr

inductive Capability where
  | pausePortal
  | accessPolicy
  deriving DecidableEq, Repr

/-- A withdrawal as the portal receives it; `recipient` is the source's `to`. -/
structure Withdrawal (W : Type) where
  token : Address
  senderTag : W
  recipient : Address
  amount : ℕ
  memo : W
  gasLimit : ℕ
  fallbackNonce : ℕ
  callbackData : Bytes
  encryptedSender : Bytes
  deriving DecidableEq

/-- Internal deposit-queue entry of a bounced withdrawal; `recipient` is the source's `to`. -/
structure WithdrawalBounceBackDeposit where
  token : Address
  recipient : Address
  amount : ℕ
  deriving DecidableEq

/-- Recipient and memo encrypted to the sequencer. -/
structure DepositPayload (W : Type) where
  ephemeralPubkeyX : W
  ephemeralPubkeyYParity : ℕ
  ciphertext : Bytes
  nonce : W
  tag : W
  deriving DecidableEq

/-- User deposit stored in the queue. -/
structure Deposit (W : Type) where
  token : Address
  sender : Address
  amount : ℕ
  tempoRefundRecipient : Address
  keyIndex : ℕ
  encrypted : DepositPayload W
  deriving DecidableEq

inductive DepositType where
  | withdrawalBounceBack
  | deposit
  deriving DecidableEq, Repr

def DepositType.toNat : DepositType → ℕ
  | .withdrawalBounceBack => 0
  | .deposit => 1

structure EnabledToken where
  token : Address
  name : Bytes
  symbol : Bytes
  currency : Bytes
  deriving DecidableEq

structure BlockTransition (W : Type) where
  prevBlockHash : W
  nextBlockHash : W
  deriving DecidableEq

structure DepositQueueTransition (W : Type) where
  prevProcessedHash : W
  nextProcessedHash : W
  prevDepositNumber : ℕ
  nextDepositNumber : ℕ
  deriving DecidableEq

structure TokenEnablementTransition where
  prevProcessedTokenCount : ℕ
  nextProcessedTokenCount : ℕ
  deriving DecidableEq

structure EncryptionKeyEntry (W : Type) where
  x : W
  yParity : ℕ
  activationBlock : ℕ
  deriving DecidableEq

structure TokenConfig where
  enabled : Bool
  depositsActive : Bool
  deriving DecidableEq

variable {W : Type} [EvmWord W]

/-! ## Withdrawal queue hash -/

/-- ABI encoding of a `Withdrawal`. -/
def Withdrawal.codec : Codec W (Withdrawal W) :=
  (tuple (.address (.bytes32 (.address (.uint (.bytes32 (.uint (.uint
    (.dyn ofNat .dynBytes (.dyn ofNat .dynBytes .nil)))))))))).comap
    (fun w : Withdrawal W => (w.token, w.senderTag, w.recipient, w.amount, w.memo, w.gasLimit,
      w.fallbackNonce, w.callbackData, w.encryptedSender, ()))
    (by
      rintro ⟨⟩ ⟨⟩ h
      simp only [Prod.mk.injEq] at h
      simp only [Withdrawal.mk.injEq]
      tauto)

/-- `abi.encode(withdrawal, tail)`. -/
def Withdrawal.linkCodec : Codec W (Withdrawal W × W × Unit) :=
  tuple (.dyn ofNat Withdrawal.codec (.bytes32 .nil))

/-- `keccak256(abi.encode(withdrawal, tail))`: one link of a withdrawal queue. -/
def Withdrawal.hashWithTail (w : Withdrawal W) (tail : W) : W :=
  keccak256 (Withdrawal.linkCodec.encode (w, tail, ()))

/-- Withdrawal queue hash of a list: the zero word for an empty list, links from the back. -/
def Withdrawal.queueHash (ws : List (Withdrawal W)) : W :=
  suffixChain Withdrawal.hashWithTail 0 ws

theorem withdrawal_binding (hc : CollisionFree W) :
    Binding (Withdrawal.hashWithTail (W := W)) 0 where
  link_inj h := by
    have h' := encode_injective _ (hc.keccak_inj h)
    simp only [Prod.mk.injEq, and_true] at h'
    exact h'
  link_ne _ _ := hc.keccak_ne_zero _

/-! ## Deposit queue hash -/

def WithdrawalBounceBackDeposit.codec : Codec W WithdrawalBounceBackDeposit :=
  (tuple (.address (.address (.uint .nil)))).comap
    (fun d : WithdrawalBounceBackDeposit => (d.token, d.recipient, d.amount, ()))
    (by
      rintro ⟨⟩ ⟨⟩ h
      simp only [Prod.mk.injEq] at h
      simp only [WithdrawalBounceBackDeposit.mk.injEq]
      tauto)

def DepositPayload.codec : Codec W (DepositPayload W) :=
  (tuple (.bytes32 (.uint (.dyn ofNat .dynBytes (.bytes32 (.bytes32 .nil)))))).comap
    (fun p : DepositPayload W => (p.ephemeralPubkeyX, p.ephemeralPubkeyYParity, p.ciphertext,
      p.nonce, p.tag, ()))
    (by
      rintro ⟨⟩ ⟨⟩ h
      simp only [Prod.mk.injEq] at h
      simp only [DepositPayload.mk.injEq]
      tauto)

/-- ABI encoding of a `Deposit`. -/
def Deposit.codec : Codec W (Deposit W) :=
  (tuple (.address (.address (.uint (.address (.uint
    (.dyn ofNat DepositPayload.codec .nil))))))).comap
    (fun d : Deposit W => (d.token, d.sender, d.amount, d.tempoRefundRecipient, d.keyIndex,
      d.encrypted, ()))
    (by
      rintro ⟨⟩ ⟨⟩ h
      simp only [Prod.mk.injEq] at h
      simp only [Deposit.mk.injEq]
      tauto)

/-- `abi.encode(DepositType.WithdrawalBounceBack, bounceBack, prevHash)`. -/
def bounceBackLinkCodec : Codec W (ℕ × WithdrawalBounceBackDeposit × W × Unit) :=
  tuple (.uint (.static WithdrawalBounceBackDeposit.codec rfl (.bytes32 .nil)))

/-- `abi.encode(DepositType.Deposit, deposit, prevHash)`. -/
def depositLinkCodec : Codec W (ℕ × Deposit W × W × Unit) :=
  tuple (.uint (.dyn ofNat Deposit.codec (.bytes32 .nil)))

def DepositQueueLib.enqueue (currentHash : W) (depositData : WithdrawalBounceBackDeposit) : W :=
  keccak256 (bounceBackLinkCodec.encode
    (DepositType.withdrawalBounceBack.toNat, depositData, currentHash, ()))

def DepositQueueLib.enqueueDeposit (currentHash : W) (depositData : Deposit W) : W :=
  keccak256 (depositLinkCodec.encode (DepositType.deposit.toNat, depositData, currentHash, ()))

inductive QueueEntry (W : Type) where
  | bounceBack (d : WithdrawalBounceBackDeposit)
  | deposit (d : Deposit W)
  deriving DecidableEq

def QueueEntry.token : QueueEntry W → Address
  | .bounceBack d => d.token
  | .deposit d => d.token

def QueueEntry.amount : QueueEntry W → ℕ
  | .bounceBack d => d.amount
  | .deposit d => d.amount

/-- Queue hash after appending an entry; the zone's `hash_with_tail` and the portal's
`DepositQueueLib` use the same encodings. -/
def QueueEntry.hashWithTail (e : QueueEntry W) (tail : W) : W :=
  match e with
  | .bounceBack d => DepositQueueLib.enqueue tail d
  | .deposit d => DepositQueueLib.enqueueDeposit tail d

def QueueEntry.queueHash (es : List (QueueEntry W)) : W :=
  prefixChain QueueEntry.hashWithTail 0 es

theorem depositLinkCodec_ne_bounceBack (a : WithdrawalBounceBackDeposit) (b : Deposit W) (g h : W) :
    bounceBackLinkCodec.encode (DepositType.withdrawalBounceBack.toNat, a, g, ()) ≠
      depositLinkCodec.encode (DepositType.deposit.toNat, b, h, ()) := by
  intro heq
  have hhead : (ofNat 0 : W) = ofNat 1 := by
    have := congrArg List.head? heq
    simpa [bounceBackLinkCodec, depositLinkCodec, tuple, Fields.static, Fields.uint, Codec.uint,
      word, DepositType.toNat] using this
  exact absurd (ofNat_injective hhead) (by decide)

theorem queueEntry_binding (hc : CollisionFree W) :
    Binding (QueueEntry.hashWithTail (W := W)) 0 where
  link_inj := by
    intro x y g h heq
    cases x with
    | bounceBack a =>
      cases y with
      | bounceBack b =>
        have h' := encode_injective _ (hc.keccak_inj heq)
        simp only [Prod.mk.injEq, and_true, true_and] at h'
        exact ⟨by rw [h'.1], h'.2⟩
      | deposit b => exact absurd (hc.keccak_inj heq) (depositLinkCodec_ne_bounceBack a b g h)
    | deposit a =>
      cases y with
      | bounceBack b =>
        exact absurd (hc.keccak_inj heq).symm (depositLinkCodec_ne_bounceBack b a h g)
      | deposit b =>
        have h' := encode_injective _ (hc.keccak_inj heq)
        simp only [Prod.mk.injEq, and_true, true_and] at h'
        exact ⟨by rw [h'.1], h'.2⟩
  link_ne x h := by
    cases x with
    | bounceBack a => exact hc.keccak_ne_zero _
    | deposit a => exact hc.keccak_ne_zero _

/-! ## Token enablement hash -/

/-- `abi.encode(previousHash, token, name, symbol, currency)`. -/
def EnabledToken.linkCodec : Codec W (W × Address × Bytes × Bytes × Bytes × Unit) :=
  tuple (.bytes32 (.address (.dyn ofNat .dynBytes
    (.dyn ofNat .dynBytes (.dyn ofNat .dynBytes .nil)))))

def EnabledToken.hashWithPrevious (t : EnabledToken) (previousHash : W) : W :=
  keccak256 (EnabledToken.linkCodec.encode
    (previousHash, t.token, t.name, t.symbol, t.currency, ()))

theorem enabledToken_binding (hc : CollisionFree W) :
    Binding (EnabledToken.hashWithPrevious (W := W)) 0 where
  link_inj := by
    rintro ⟨⟩ ⟨⟩ g h heq
    have h' := encode_injective _ (hc.keccak_inj heq)
    simp only [Prod.mk.injEq, and_true] at h'
    obtain ⟨rfl, rfl, rfl, rfl, rfl⟩ := h'
    exact ⟨rfl, rfl⟩
  link_ne _ _ := hc.keccak_ne_zero _

end TempoZones
