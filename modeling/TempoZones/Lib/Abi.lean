import Mathlib.Algebra.GroupWithZero.Nat
import Mathlib.Data.List.Basic

/-!
# ABI encodings as self-delimiting codecs

The contract ABI encodes a tuple as a head followed by a tail: a static component stands in the
head, a dynamic one in the tail with its offset in the head. An encoding is a list of `Chunk`s:
32-byte words, kept as elements of a type `W`, and runs of raw bytes. A `Codec α` carries the proof
that it is self-delimiting: equal encodings followed by anything come from equal values followed by
the same rest. `Codec.tuple` builds a tuple from `Fields`.
-/

namespace TempoZones.Lib

open List

universe u v w

/-- A piece of an encoded byte string: one 32-byte word, or a run of raw bytes. -/
inductive Chunk (W : Type u) where
  | word (w : W)
  | raw (bytes : List UInt8)
  deriving DecidableEq

/-- Number of bytes a chunk stands for. -/
def Chunk.size {W : Type u} : Chunk W → ℕ
  | .word _ => 32
  | .raw bytes => bytes.length

/-- Number of bytes of an encoding. -/
def byteSize {W : Type u} (cs : List (Chunk W)) : ℕ :=
  (cs.map Chunk.size).sum

variable {W : Type u} {α : Type v} {β : Type w}

/-- Encoder of a component of an ABI tuple. A static codec has a fixed number of chunks, all of
them words; a dynamic codec delimits itself. -/
structure Codec (W : Type u) (α : Type v) where
  /-- Whether the component is referred to by an offset in the head. -/
  dynamic : Bool
  /-- Number of words of a static component. -/
  words : ℕ
  encode : α → List (Chunk W)
  length_eq : dynamic = false → ∀ a, (encode a).length = words
  delimited : ∀ {a b : α} {r s : List (Chunk W)}, encode a ++ r = encode b ++ s → a = b ∧ r = s

namespace Codec

theorem encode_injective (c : Codec W α) : Function.Injective c.encode := by
  intro a b h
  have h' : c.encode a ++ [] = c.encode b ++ [] := by rw [h]
  exact (c.delimited h').1

def word (f : α → W) (hf : Function.Injective f) : Codec W α where
  dynamic := false
  words := 1
  encode a := [.word (f a)]
  length_eq _ _ := rfl
  delimited h := by
    simp only [cons_append, nil_append, List.cons.injEq, Chunk.word.injEq] at h
    exact ⟨hf h.1, h.2⟩

/-- Zero bytes that pad `n` bytes to a multiple of 32. -/
def padding (n : ℕ) : List UInt8 :=
  List.replicate ((32 - n % 32) % 32) 0

/-- A byte string: its length, then its padded bytes. -/
def bytes (ofNat : ℕ → W) (hof : Function.Injective ofNat) : Codec W (List UInt8) where
  dynamic := true
  words := 0
  encode b := [.word (ofNat b.length), .raw (b ++ padding b.length)]
  length_eq h := by cases h
  delimited := by
    intro a b r s h
    simp only [cons_append, nil_append, List.cons.injEq, Chunk.word.injEq, Chunk.raw.injEq] at h
    obtain ⟨hlen, hbytes, hrest⟩ := h
    exact ⟨(append_inj hbytes (hof hlen)).1, hrest⟩

/-- Encode a value through an injective view of it. -/
def comap (c : Codec W β) (f : α → β) (hf : Function.Injective f) : Codec W α where
  dynamic := c.dynamic
  words := c.words
  encode a := c.encode (f a)
  length_eq h a := c.length_eq h (f a)
  delimited h := ⟨hf (c.delimited h).1, (c.delimited h).2⟩

end Codec

/-- Components of a tuple: `head` writes the static components and the offsets of the dynamic
ones, given the offset of the first free byte of the tail; `tail` writes the dynamic ones. -/
structure Fields (W : Type u) (α : Type v) where
  dynamic : Bool
  /-- Number of words of the head. -/
  words : ℕ
  head : α → ℕ → List (Chunk W)
  tail : α → List (Chunk W)
  length_head : ∀ a n, (head a n).length = words
  tail_eq_nil : dynamic = false → ∀ a, tail a = []
  delimited : ∀ {a b : α} {m n : ℕ} {r s : List (Chunk W)},
    head a m = head b n → tail a ++ r = tail b ++ s → a = b ∧ r = s

namespace Fields

/-- The empty tuple. -/
def nil : Fields W PUnit.{v + 1} where
  dynamic := false
  words := 0
  head _ _ := []
  tail _ := []
  length_head _ _ := rfl
  tail_eq_nil _ _ := rfl
  delimited _ h := ⟨rfl, h⟩

/-- Put a static component in front. -/
def static (c : Codec W α) (hc : c.dynamic = false) (fs : Fields W β) : Fields W (α × β) where
  dynamic := fs.dynamic
  words := c.words + fs.words
  head p n := c.encode p.1 ++ fs.head p.2 n
  tail p := fs.tail p.2
  length_head p n := by rw [length_append, c.length_eq hc, fs.length_head]
  tail_eq_nil h p := fs.tail_eq_nil h p.2
  delimited := by
    rintro ⟨a, x⟩ ⟨b, y⟩ m n r s hhead htail
    obtain ⟨rfl, hrest⟩ := c.delimited hhead
    obtain ⟨rfl, hrs⟩ := fs.delimited hrest htail
    exact ⟨rfl, hrs⟩

/-- Put a dynamic component in front: its offset stands in the head. -/
def dyn (ofNat : ℕ → W) (c : Codec W α) (fs : Fields W β) : Fields W (α × β) where
  dynamic := true
  words := 1 + fs.words
  head p n := .word (ofNat n) :: fs.head p.2 (n + byteSize (c.encode p.1))
  tail p := c.encode p.1 ++ fs.tail p.2
  length_head p n := by rw [length_cons, fs.length_head, Nat.add_comm]
  tail_eq_nil h := by cases h
  delimited := by
    rintro ⟨a, x⟩ ⟨b, y⟩ m n r s hhead htail
    simp only [append_assoc] at htail
    obtain ⟨rfl, hrest⟩ := c.delimited htail
    obtain ⟨rfl, hrs⟩ := fs.delimited (List.cons.inj hhead).2 hrest
    exact ⟨rfl, hrs⟩

end Fields

namespace Codec

/-- The tuple with the given components: the head, then the tail, which starts after it. -/
def tuple (fs : Fields W α) : Codec W α where
  dynamic := fs.dynamic
  words := fs.words
  encode a := fs.head a (32 * fs.words) ++ fs.tail a
  length_eq h a := by rw [fs.tail_eq_nil h, append_nil, fs.length_head]
  delimited := by
    intro a b r s h
    simp only [append_assoc] at h
    obtain ⟨hhead, htail⟩ := append_inj h (by rw [fs.length_head, fs.length_head])
    exact fs.delimited hhead htail

end Codec

end TempoZones.Lib
