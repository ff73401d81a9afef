import Mathlib.Tactic.Ring
import TempoZones.Zone.State

/-!
# Buffers read by offset

A decoder reads big-endian words and byte runs at offsets of a buffer and fails beyond its end.
-/

namespace TempoZones

open Lib List Nat

theorem foldl_natOfBytes (bs : Bytes) (a : ℕ) :
    bs.foldl (fun n b => n * 256 + b.toNat) a = a * 256 ^ bs.length + natOfBytes bs := by
  unfold natOfBytes
  induction bs generalizing a with
  | nil => simp
  | cons b bs ih =>
    rw [foldl_cons, foldl_cons, ih, ih (0 * 256 + b.toNat), length_cons]
    ring

theorem natOfBytes_append (bs cs : Bytes) :
    natOfBytes (bs ++ cs) = natOfBytes bs * 256 ^ cs.length + natOfBytes cs := by
  rw [← foldl_natOfBytes, natOfBytes, foldl_append, natOfBytes]

@[simp] theorem length_beBytes (width n : ℕ) : (beBytes width n).length = width := by simp [beBytes]

theorem beBytes_succ (width n : ℕ) :
    beBytes (width + 1) n = UInt8.ofNat (n / 256 ^ width) :: beBytes width n := by
  rw [beBytes, range_succ, reverse_concat, map_cons]
  rfl

theorem natOfBytes_beBytes (width n : ℕ) : natOfBytes (beBytes width n) = n % 256 ^ width := by
  induction width with
  | zero => simp [beBytes, natOfBytes, mod_one]
  | succ width ih =>
    rw [beBytes_succ, natOfBytes, foldl_cons, foldl_natOfBytes, ih, length_beBytes,
      mod_pow_succ, UInt8.toNat_ofNat', zero_mul, zero_add]
    ring

def slice (buf : Bytes) (start len : ℕ) : Option (Bytes) :=
  if start + len ≤ buf.length then some ((buf.drop start).take len) else none

theorem slice_append (before bs after : Bytes) :
    slice (before ++ (bs ++ after)) before.length bs.length = some bs := by
  simp [slice]

def wordAt (buf : Bytes) (start : ℕ) : Option ℕ := (slice buf start 32).map natOfBytes

def wordsAt (buf : Bytes) : ℕ → ℕ → Option (List ℕ)
  | _, 0 => some []
  | start, k + 1 => do
    let w ← wordAt buf start
    let ws ← wordsAt buf (start + 32) k
    return w :: ws

/-- A read that ends inside the buffer. -/
theorem le_of_wordsAt {buf : Bytes} {k : ℕ} : ∀ {start : ℕ} {ws : List ℕ},
    wordsAt buf start (k + 1) = some ws → start + 32 * (k + 1) ≤ buf.length := by
  induction k with
  | zero =>
    intro start ws h
    by_contra hout
    simp [wordsAt, wordAt, slice, hout] at h
  | succ k ih =>
    intro start ws h
    rw [wordsAt] at h
    obtain ⟨_, -, h⟩ := Option.bind_eq_some_iff.1 h
    obtain ⟨_, hrest, -⟩ := Option.bind_eq_some_iff.1 h
    have hle := ih hrest
    omega

def encodeWords (ws : List ℕ) : Bytes := ws.flatMap (beBytes 32)

@[simp] theorem length_encodeWords (ws : List ℕ) : (encodeWords ws).length = 32 * ws.length := by
  simp [encodeWords, mul_comm]

theorem wordAt_append {n : ℕ} (hn : n < 2 ^ 256) (before after : Bytes) :
    wordAt (before ++ (beBytes 32 n ++ after)) before.length = some n := by
  have hslice := slice_append before (beBytes 32 n) after
  rw [length_beBytes] at hslice
  rw [wordAt, hslice, Option.map_some, natOfBytes_beBytes, mod_eq_of_lt]
  exact hn

theorem wordsAt_append (after : Bytes) {ws : List ℕ} : ∀ {before : Bytes}, (∀ w ∈ ws, w < 2 ^ 256) →
      wordsAt (before ++ (encodeWords ws ++ after)) before.length ws.length = some ws := by
  induction ws with
  | nil => exact fun _ => rfl
  | cons w ws ih =>
    intro before hws
    have hrest := @ih (before ++ beBytes 32 w) fun x hx => hws x (mem_cons_of_mem _ hx)
    rw [length_append, length_beBytes, append_assoc] at hrest
    rw [encodeWords, flatMap_cons, append_assoc, length_cons, wordsAt,
      wordAt_append (hws w mem_cons_self), ← encodeWords, hrest]
    rfl

end TempoZones
