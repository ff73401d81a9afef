import TempoZones.System.Model

/-!
# Encryption-key history

`encryptionKeyAtBlock` searches the key history by bisection, with checked arithmetic and array
reads. The activation blocks do not decrease (`KeyHistory`) along every run of
`setSequencerEncryptionKey` calls (`KeyRun`). The bisection keeps the bounds of `Bracketed` and ends
at the last active key; a key valid at a later moment was valid at every earlier one.
-/

namespace TempoZones

open Lib List Nat Prod

variable {W : Type} [EvmWord W]

/-! ## Lookup -/

/-- Failures of `encryptionKeyAtBlock`; a panic is a failed arithmetic or bounds check. -/
inductive KeyLookupError where
  | noEncryptionKeyAtBlock (tempoBlockNumber : ℕ)
  | panic
  deriving DecidableEq

/-- Loop of `encryptionKeyAtBlock`. -/
def searchKeys (keys : List (EncryptionKeyEntry W)) (tempoBlockNumber low high : ℕ) :
    Except KeyLookupError ℕ :=
  if low < high then
    if low + high + 1 < 2 ^ 256 then
      match keys[(low + high + 1) / 2]? with
      | none => .error .panic
      | some key =>
        if key.activationBlock ≤ tempoBlockNumber then
          searchKeys keys tempoBlockNumber ((low + high + 1) / 2) high
        else if 1 ≤ (low + high + 1) / 2 then
          searchKeys keys tempoBlockNumber low ((low + high + 1) / 2 - 1)
        else .error .panic
    else .error .panic
  else .ok low
  termination_by high - low

/-- `encryptionKeyAtBlock`: coordinates and index of the key. -/
def Params.encryptionKeyAtBlock (p : Params W) (tempoBlockNumber : ℕ) :
    Except KeyLookupError (W × ℕ × ℕ) :=
  match p.encryptionKeys with
  | [] => .error (.noEncryptionKeyAtBlock tempoBlockNumber)
  | first :: _ =>
    if tempoBlockNumber < first.activationBlock then
      .error (.noEncryptionKeyAtBlock tempoBlockNumber)
    else do
      let low ← searchKeys p.encryptionKeys tempoBlockNumber 0 (p.encryptionKeys.length - 1)
      match p.encryptionKeys[low]? with
      | none => .error .panic
      | some entry => pure (entry.x, entry.yParity, low)

/-! ## Runs of key updates -/

/-- Moments of a run from portal `p` at block `n`: keys are set at blocks that do not decrease, and
everything else leaves the keys alone. Block numbers have 64 bits, and a storage array takes no
element beyond the first `2 ^ 64`. -/
inductive KeyRun (n : ℕ) (p : Portal W) : ℕ → Portal W → Prop
  | refl : KeyRun n p n p
  | set {m : ℕ} {q : Portal W} {ctx : CallCtx W} {sender : Address} {x : W} {yParity popV : ℕ}
      {popR popS : W} {params : Params W} {registry : TokenRegistry W}
      {logs : List (PortalEvent W)} (before : KeyRun n p m q) (order : m ≤ ctx.env.number)
      (number : ctx.env.number < 2 ^ 64) (room : q.params.encryptionKeys.length < 2 ^ 64)
      (run : q.setSequencerEncryptionKey ctx sender x yParity popV popR popS =
        .ok (params, registry, logs)) :
      KeyRun n p ctx.env.number { q with params := params, registry := registry }
  | other {m m' : ℕ} {q q' : Portal W} (before : KeyRun n p m q) (order : m ≤ m')
      (keys : q'.params.encryptionKeys = q.params.encryptionKeys) : KeyRun n p m' q'

/-- Keys as they are at block `n`: in the order of their activation, which is not in the future. -/
structure KeyHistory (n : ℕ) (keys : List (EncryptionKeyEntry W)) : Prop where
  sorted : keys.Pairwise fun a b => a.activationBlock ≤ b.activationBlock
  past : ∀ key ∈ keys, key.activationBlock ≤ n
  length_le : keys.length ≤ 2 ^ 64

theorem keyHistory_nil (n : ℕ) : KeyHistory n ([] : List (EncryptionKeyEntry W)) :=
  ⟨.nil, nofun, zero_le _⟩

theorem KeyHistory.mono {n n' : ℕ} {keys : List (EncryptionKeyEntry W)} (h : KeyHistory n keys)
    (hle : n ≤ n') : KeyHistory n' keys :=
  ⟨h.sorted, fun key hkey => (h.past key hkey).trans hle, h.length_le⟩

theorem KeyHistory.append {n n' : ℕ} {keys : List (EncryptionKeyEntry W)} (h : KeyHistory n keys)
    (hle : n ≤ n') (room : keys.length < 2 ^ 64) (x : W) (yParity : ℕ) :
    KeyHistory n' (keys ++ [⟨x, yParity, n'⟩]) := by
  refine ⟨pairwise_append.2 ⟨h.sorted, pairwise_singleton _ _, ?_⟩, ?_, ?_⟩
  · intro a ha b hb
    rw [mem_singleton.1 hb]
    exact (h.past a ha).trans hle
  · intro key hkey
    rcases mem_append.1 hkey with hkey | hkey
    · exact (h.past key hkey).trans hle
    · rw [mem_singleton.1 hkey]
  · rw [length_append]
    exact room

theorem setSequencerEncryptionKey_ok {q : Portal W} {ctx : CallCtx W} {sender : Address} {x : W}
    {yParity popV : ℕ} {popR popS : W} {params : Params W} {registry : TokenRegistry W}
    {logs : List (PortalEvent W)} (number : ctx.env.number < 2 ^ 64)
    (h : q.setSequencerEncryptionKey ctx sender x yParity popV popR popS =
      .ok (params, registry, logs)) :
    params.encryptionKeys = q.params.encryptionKeys ++ [⟨x, yParity, ctx.env.number⟩] := by
  simp only [Portal.setSequencerEncryptionKey, ok_iff, mk.injEq] at h
  obtain ⟨-, -, -, -, -, -, -, -, rfl, -, -⟩ := h
  have hexact : uint64 ctx.env.number = ctx.env.number := mod_eq_of_lt number
  rw [hexact]

theorem KeyRun.history {n m : ℕ} {p q : Portal W} (h : KeyRun n p m q)
    (hp : KeyHistory n p.params.encryptionKeys) :
    KeyHistory m q.params.encryptionKeys ∧ n ≤ m ∧
      p.params.encryptionKeys <+: q.params.encryptionKeys := by
  induction h with
  | refl => exact ⟨hp, le_rfl, prefix_rfl⟩
  | set _ order number room run ih =>
    obtain ⟨hq, hle, hgrown⟩ := ih
    have hkeys := setSequencerEncryptionKey_ok number run
    refine ⟨?_, hle.trans order, ?_⟩
    · rw [hkeys]
      exact hq.append order room _ _
    · rw [hkeys]
      exact hgrown.trans (prefix_append _ _)
  | other _ order keys ih =>
    obtain ⟨hq, hle, hgrown⟩ := ih
    rw [keys]
    exact ⟨hq.mono order, hle.trans order, hgrown⟩

/-! ## Bisection -/

/-- `key` has the greatest index among the keys active at block `b`. -/
structure ActiveAt (keys : List (EncryptionKeyEntry W)) (b i : ℕ) (key : EncryptionKeyEntry W) :
    Prop where
  stored : keys[i]? = some key
  active : key.activationBlock ≤ b
  last : ∀ {j : ℕ} {other : EncryptionKeyEntry W}, keys[j]? = some other →
    other.activationBlock ≤ b → j ≤ i

/-- Bounds of the bisection: the key at `low` is active and no key after `high` is. -/
structure Bracketed (keys : List (EncryptionKeyEntry W)) (b low high : ℕ) : Prop where
  le : low ≤ high
  lt : high < keys.length
  active : ∃ key, keys[low]? = some key ∧ key.activationBlock ≤ b
  above : ∀ {j : ℕ} {key : EncryptionKeyEntry W}, keys[j]? = some key → high < j →
    b < key.activationBlock

section Search

variable {keys : List (EncryptionKeyEntry W)} {b : ℕ}

theorem activationBlock_le_of_le
    (sorted : keys.Pairwise fun a c => a.activationBlock ≤ c.activationBlock) {i j : ℕ}
    {a c : EncryptionKeyEntry W} (ha : keys[i]? = some a) (hc : keys[j]? = some c) (hij : i ≤ j) :
    a.activationBlock ≤ c.activationBlock := by
  obtain ⟨hi, rfl⟩ := List.getElem?_eq_some_iff.1 ha
  obtain ⟨hj, rfl⟩ := List.getElem?_eq_some_iff.1 hc
  rcases hij.lt_or_eq with hlt | rfl
  · exact pairwise_iff_getElem.1 sorted i j hi hj hlt
  · exact le_rfl

theorem searchKeys_ok (sorted : keys.Pairwise fun a c => a.activationBlock ≤ c.activationBlock)
    (length_le : keys.length ≤ 2 ^ 64) :
    ∀ {low high : ℕ}, Bracketed keys b low high →
      ∃ i key, searchKeys keys b low high = .ok i ∧ ActiveAt keys b i key := by
  intro low high
  fun_induction searchKeys keys b low high with
  | case1 low high hlt hfits hnone =>
    intro hbounds
    -- the midpoint lies within the list
    have hlen := hbounds.lt
    rw [List.getElem?_eq_none_iff] at hnone
    omega
  | case2 low high hlt hfits key hkey hactive ih =>
    intro hbounds
    apply ih
    exact ⟨by omega, hbounds.lt, ⟨key, hkey, hactive⟩, hbounds.above⟩
  | case3 low high hlt hfits key hkey hactive hpos ih =>
    intro hbounds
    apply ih
    refine ⟨by omega, by have := hbounds.lt; omega, hbounds.active, ?_⟩
    intro j other hother hj
    -- keys from the midpoint on are activated no earlier than the one there
    have hle := activationBlock_le_of_le sorted hkey hother (by omega)
    omega
  | case4 low high hlt hfits key hkey hactive hzero => omega
  | case5 low high hlt hoverflow =>
    intro hbounds
    have hlen := hbounds.lt
    omega
  | case6 low high hdone =>
    intro hbounds
    obtain ⟨key, hkey, hactive⟩ := hbounds.active
    refine ⟨low, key, rfl, hkey, hactive, ?_⟩
    intro j other hother hother'
    by_contra hj
    have habove := hbounds.above hother (by have := hbounds.le; omega)
    omega

theorem encryptionKeyAtBlock_cases {p : Params W} {n : ℕ} (h : KeyHistory n p.encryptionKeys)
    (b : ℕ) :
    (∃ i key, ActiveAt p.encryptionKeys b i key ∧
      p.encryptionKeyAtBlock b = .ok (key.x, key.yParity, i)) ∨
    (p.encryptionKeyAtBlock b = .error (.noEncryptionKeyAtBlock b) ∧
      ∀ key ∈ p.encryptionKeys, b < key.activationBlock) := by
  unfold Params.encryptionKeyAtBlock
  split
  · next hnil =>
    right
    refine ⟨rfl, ?_⟩
    intro key hkey
    rw [hnil] at hkey
    cases hkey
  · next first rest hkeys =>
    split
    · next hlt =>
      right
      refine ⟨rfl, ?_⟩
      intro key hkey
      obtain ⟨i, hi⟩ := mem_iff_getElem?.1 hkey
      have hfirst : p.encryptionKeys[0]? = some first := by rw [hkeys]; rfl
      exact hlt.trans_le (activationBlock_le_of_le h.sorted hfirst hi (zero_le i))
    · next hge =>
      left
      have hpos : 0 < p.encryptionKeys.length := by rw [hkeys]; exact succ_pos _
      have hbounds : Bracketed p.encryptionKeys b 0 (p.encryptionKeys.length - 1) := by
        refine ⟨zero_le _, by omega, ⟨first, by rw [hkeys]; rfl, by omega⟩, ?_⟩
        intro j key hkey hj
        have hlt := (List.getElem?_eq_some_iff.1 hkey).1
        omega
      obtain ⟨i, key, hsearch, hactive⟩ := searchKeys_ok h.sorted h.length_le hbounds
      refine ⟨i, key, hactive, ?_⟩
      rw [hsearch]
      simp only [bind, Except.bind, hactive.stored]
      rfl

end Search

/-! ## Validity -/

section Validity

variable {p q : Params W} {env env' : BlockEnv} {k : ℕ}

theorem isEncryptionKeyValid_iff {expiresAt : ℕ} :
    p.isEncryptionKeyValid env k = .ok (true, expiresAt) ↔
      (∃ key, p.encryptionKeys[k]? = some key) ∧
        ((p.encryptionKeys[k + 1]? = none ∧ expiresAt = 0) ∨
          ∃ next, p.encryptionKeys[k + 1]? = some next ∧
            next.activationBlock + ENCRYPTION_KEY_GRACE_PERIOD < 2 ^ 64 ∧
            env.number < next.activationBlock + ENCRYPTION_KEY_GRACE_PERIOD ∧
            expiresAt = next.activationBlock + ENCRYPTION_KEY_GRACE_PERIOD) := by
  unfold Params.isEncryptionKeyValid
  cases hkey : p.encryptionKeys[k]? with
  | none => simp [pure_ok_iff]
  | some key =>
    cases hnext : p.encryptionKeys[k + 1]? with
    | none =>
      simp only [pure_ok_iff, mk.injEq, true_and, Option.some.injEq, exists_eq',
        reduceCtorEq, false_and, exists_false, or_false]
      exact eq_comm
    | some next =>
      simp only [ok_iff, checkedAdd_eq_ok, mk.injEq, decide_eq_true_eq]
      constructor
      · rintro ⟨_, ⟨hfits, rfl⟩, hlt, rfl⟩
        exact ⟨⟨key, rfl⟩, .inr ⟨next, rfl, hfits, hlt, rfl⟩⟩
      · rintro ⟨-, ⟨hnone, -⟩ | ⟨next', hsome, hfits, hlt, rfl⟩⟩
        · cases hnone
        · cases hsome
          exact ⟨_, ⟨hfits, rfl⟩, hlt, rfl⟩

theorem isEncryptionKeyValid_earlier (hkeys : p.encryptionKeys <+: q.encryptionKeys)
    (hset : k < p.encryptionKeys.length) (hle : env.number ≤ env'.number) {expiresAt : ℕ}
    (h : q.isEncryptionKeyValid env' k = .ok (true, expiresAt)) :
    ∃ expiresAt, p.isEncryptionKeyValid env k = .ok (true, expiresAt) := by
  obtain ⟨key, hkey⟩ : ∃ key, p.encryptionKeys[k]? = some key := ⟨_, List.getElem?_eq_getElem hset⟩
  cases hnext : p.encryptionKeys[k + 1]? with
  | none => exact ⟨0, isEncryptionKeyValid_iff.2 ⟨⟨key, hkey⟩, .inl ⟨hnext, rfl⟩⟩⟩
  | some next =>
    -- the successor is the same one at both moments
    have hnext' : q.encryptionKeys[k + 1]? = some next := by
      obtain ⟨more, hmore⟩ := hkeys
      rw [← hmore, List.getElem?_append_left (List.getElem?_eq_some_iff.1 hnext).1, hnext]
    rcases (isEncryptionKeyValid_iff.1 h).2 with ⟨hnone, -⟩ | ⟨next', hsome, hfits, hlt, -⟩
    · rw [hnext'] at hnone
      cases hnone
    · cases hnext'.symm.trans hsome
      exact ⟨_, isEncryptionKeyValid_iff.2
        ⟨⟨key, hkey⟩, .inr ⟨next, hnext, hfits, hle.trans_lt hlt, rfl⟩⟩⟩

end Validity

/-! ## Main result -/

/-- **Key lookup and validity.** The lookup at any block ends without a failed check: it returns the
last key active at that block, or fails when there is none. A key accepted at some moment was
accepted at every earlier moment since it was set; the newest key is accepted; and an accepted key
is the one the lookup finds at the current block or one whose successor was activated within the
grace period. -/
theorem encryption_keys_exact {n₀ n m : ℕ} {p₀ p q : Portal W}
    (start : p₀.params.encryptionKeys = []) (earlier : KeyRun n₀ p₀ n p) (later : KeyRun n p m q) :
    (∀ b, (∃ i key, ActiveAt p.params.encryptionKeys b i key ∧
        p.params.encryptionKeyAtBlock b = .ok (key.x, key.yParity, i)) ∨
      (p.params.encryptionKeyAtBlock b = .error (.noEncryptionKeyAtBlock b) ∧
        ∀ key ∈ p.params.encryptionKeys, b < key.activationBlock)) ∧
    (∀ (env env' : BlockEnv) (k expiresAt : ℕ), env.number = n → env'.number = m →
      k < p.params.encryptionKeys.length →
      q.params.isEncryptionKeyValid env' k = .ok (true, expiresAt) →
      ∃ expiresAt, p.params.isEncryptionKeyValid env k = .ok (true, expiresAt)) ∧
    (∀ (env : BlockEnv) (k : ℕ), p.params.encryptionKeys.length = k + 1 →
      p.params.isEncryptionKeyValid env k = .ok (true, 0)) ∧
    ∀ (env : BlockEnv) (k expiresAt : ℕ), env.number = n →
      p.params.isEncryptionKeyValid env k = .ok (true, expiresAt) →
      ∃ key, p.params.encryptionKeys[k]? = some key ∧ key.activationBlock ≤ n ∧
        (p.params.encryptionKeyAtBlock n = .ok (key.x, key.yParity, k) ∨
          ∃ next, p.params.encryptionKeys[k + 1]? = some next ∧ next.activationBlock ≤ n ∧
            n < next.activationBlock + ENCRYPTION_KEY_GRACE_PERIOD) := by
  have hstart : KeyHistory n₀ p₀.params.encryptionKeys := start ▸ keyHistory_nil n₀
  obtain ⟨hhistory, -, -⟩ := earlier.history hstart
  obtain ⟨-, hle, hkeys⟩ := later.history hhistory
  refine ⟨encryptionKeyAtBlock_cases hhistory, ?_, ?_, ?_⟩
  · intro env env' k expiresAt henv henv' hset hvalid
    exact isEncryptionKeyValid_earlier hkeys hset (by omega) hvalid
  · intro env k hlength
    refine isEncryptionKeyValid_iff.2 ⟨⟨_, List.getElem?_eq_getElem (by omega)⟩, .inl ⟨?_, rfl⟩⟩
    exact List.getElem?_eq_none_iff.2 hlength.le
  · intro env k expiresAt henv hvalid
    obtain ⟨⟨key, hkey⟩, hwindow⟩ := isEncryptionKeyValid_iff.1 hvalid
    have hpast := hhistory.past key (mem_of_getElem? hkey)
    refine ⟨key, hkey, hpast, ?_⟩
    rcases hwindow with ⟨hnone, -⟩ | ⟨next, hnext, -, hlt, -⟩
    · left
      -- the newest key is the last one active, since no key lies in the future
      rw [List.getElem?_eq_none_iff] at hnone
      rcases encryptionKeyAtBlock_cases hhistory n with ⟨i, found, hactive, hfound⟩ | ⟨-, hnot⟩
      · have hge := hactive.last hkey hpast
        have hi := (List.getElem?_eq_some_iff.1 hactive.stored).1
        obtain rfl : i = k := by omega
        cases hkey.symm.trans hactive.stored
        exact hfound
      · exact absurd (hnot key (mem_of_getElem? hkey)) (by omega)
    · right
      exact ⟨next, hnext, hhistory.past next (mem_of_getElem? hnext), henv ▸ hlt⟩

namespace Example

/-- The context of `keyCtx` in another block. -/
def keyCtxAt (number : ℕ) (h : number < 2 ^ 64) : CallCtx Sym :=
  ⟨{ env with number, number_lt := h }, keyCtx.ext⟩

/-- The holder of the key may set it at any time. -/
theorem keyRun_set {m n : ℕ} {q : Portal Sym} (before : KeyRun 7 endowed.portal m q)
    (hgov : q.gov = endowed.portal.gov) (order : m ≤ n) (number : n < 2 ^ 64)
    (room : q.params.encryptionKeys.length < 2 ^ 64) :
    ∃ q' : Portal Sym, KeyRun 7 endowed.portal n q' ∧ q'.gov = endowed.portal.gov ∧
      q'.params.encryptionKeys = q.params.encryptionKeys ++ [⟨.num 1, 2, n⟩] := by
  have hpossession : ¬ ((1 : Address) = 0 ∨
      (1 : Address) ≠ Secp256k1Lib.deriveAddress (Sym.num 1) 2) := by
    have hderived : Secp256k1Lib.deriveAddress (Sym.num 1) 2 = 1 := rfl
    rw [hderived]
    decide
  have hrun : ∃ r, q.setSequencerEncryptionKey (keyCtxAt n number) 1 (.num 1) 2 27 0 0 = .ok r := by
    simp only [Portal.setSequencerEncryptionKey, Governance.onlySequencerOrAdmin, ok_iff, hgov]
    exact ⟨_, (), by decide, (), rfl, (), validX, (), hpossession, rfl⟩
  obtain ⟨⟨params, registry, logs⟩, hrun⟩ := hrun
  exact ⟨_, before.set order number room hrun, hgov, setSequencerEncryptionKey_ok number hrun⟩

theorem keyRun : ∃ q : Portal Sym, KeyRun 7 endowed.portal 9 q ∧
    q.params.encryptionKeys = [⟨.num 1, 2, 7⟩, ⟨.num 1, 2, 7⟩, ⟨.num 1, 2, 9⟩] := by
  obtain ⟨q₁, hrun₁, hgov₁, hkeys₁⟩ := keyRun_set .refl rfl le_rfl (by decide) (by decide)
  obtain ⟨q₂, hrun₂, hgov₂, hkeys₂⟩ := keyRun_set hrun₁ hgov₁ le_rfl (by decide)
    (by rw [hkeys₁]; decide)
  obtain ⟨q, hrun, -, hkeys⟩ := keyRun_set hrun₂ hgov₂ (by decide : 7 ≤ 9) (by decide)
    (by rw [hkeys₂, hkeys₁]; decide)
  refine ⟨q, hrun, ?_⟩
  rw [hkeys, hkeys₂, hkeys₁]
  rfl

end Example

/-- Two keys set in block 7 and one in block 9. At block 8 the second one is found; the first one,
accepted at block 20, is accepted at block 9 in the grace period of its successor. -/
theorem encryption_keys_exact_example :
    ∃ q : Portal Sym,
      q.params.encryptionKeys = [⟨.num 1, 2, 7⟩, ⟨.num 1, 2, 7⟩, ⟨.num 1, 2, 9⟩] ∧
      q.params.encryptionKeyAtBlock 8 = .ok (.num 1, 2, 1) ∧
      (∃ expiresAt, q.params.isEncryptionKeyValid (Example.keyCtxAt 9 (by decide)).env 0 =
        .ok (true, expiresAt)) ∧
      ∃ next, q.params.encryptionKeys[1]? = some next ∧
        9 < next.activationBlock + ENCRYPTION_KEY_GRACE_PERIOD := by
  obtain ⟨q, hrun, hkeys⟩ := Example.keyRun
  obtain ⟨hlookup, hearlier, -, haccepted⟩ := encryption_keys_exact rfl hrun
    (.other .refl (by decide : 9 ≤ 20) rfl)
  have hlast : ∀ {b i : ℕ} {key : EncryptionKeyEntry Sym},
      ActiveAt q.params.encryptionKeys b i key → 7 ≤ b → 1 ≤ i ∧ i ≤ 2 := by
    intro b i key hactive hb
    rw [hkeys] at hactive
    exact ⟨hactive.last (j := 1) rfl hb,
      le_of_lt_succ (List.getElem?_eq_some_iff.1 hactive.stored).1⟩
  have hvalid : q.params.isEncryptionKeyValid (Example.keyCtxAt 20 (by decide)).env 0 =
      .ok (true, 7 + ENCRYPTION_KEY_GRACE_PERIOD) := by
    rw [Params.isEncryptionKeyValid, hkeys]
    rfl
  obtain ⟨expiresAt, hvalid⟩ := hearlier (Example.keyCtxAt 9 (by decide)).env _ 0 _ rfl rfl
    (by rw [hkeys]; decide) hvalid
  refine ⟨q, hkeys, ?_, ⟨expiresAt, hvalid⟩, ?_⟩
  · rcases hlookup 8 with ⟨i, key, hactive, hfound⟩ | ⟨-, hnone⟩
    · obtain ⟨hge, hle⟩ := hlast hactive (by decide)
      obtain ⟨hstored, hpast, -⟩ := hactive
      rw [hkeys] at hstored
      obtain rfl | rfl : i = 1 ∨ i = 2 := by omega
      · cases hstored
        exact hfound
      · cases hstored
        exact absurd hpast (by decide)
    · rw [hkeys] at hnone
      exact absurd (hnone _ List.mem_cons_self) (by decide)
  · obtain ⟨key, -, -, hfound | ⟨next, hnext, -, hlt⟩⟩ := haccepted _ 0 expiresAt rfl hvalid
    · -- at block 9 the lookup finds a later key
      rcases hlookup 9 with ⟨i, key', hactive, hfound'⟩ | ⟨herror, -⟩
      · have hsame := Except.ok.inj (hfound.symm.trans hfound')
        simp only [mk.injEq] at hsame
        exact absurd (hlast hactive (by decide)).1 (by omega)
      · cases hfound.symm.trans herror
    · exact ⟨next, hnext, hlt⟩

end TempoZones
