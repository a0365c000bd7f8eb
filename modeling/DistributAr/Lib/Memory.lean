/-
# `DistributAr.Lib.Memory` — little-endian fields in a byte memory

A memory gives the byte at each offset of an object.  `read` takes a field of
consecutive little-endian bytes for a natural number, and `overlay` copies a
received byte string over the start of a memory.

Three laws carry everything: a field that holds the bytes of a number reads as
that number modulo its width (`read_of_digits`), and after an overlay a field
that lies inside the copied prefix is the sender's (`read_overlay_inside`) while
one that lies behind it is still the receiver's (`read_overlay_outside`).
-/
import Mathlib.Data.List.TakeWhile
import Mathlib.Logic.Function.Basic
import Mathlib.Tactic.Ring

namespace DistributAr.Lib

/-- The byte at each offset of an object. -/
abbrev Memory := Nat → UInt8

namespace Memory

variable (m m' : Memory)

/-- The `w` bytes at offset `o`, least significant first. -/
def read (o : Nat) : Nat → Nat
  | 0 => 0
  | w + 1 => (m o).toNat + 256 * read (o + 1) w

/-- Reading depends on the field's own bytes only. -/
theorem read_congr {m m' : Memory} : ∀ {o w : Nat},
    (∀ k, o ≤ k → k < o + w → m k = m' k) → m.read o w = m'.read o w
  | _, 0, _ => rfl
  | o, w + 1, h => by
      have hhead : m o = m' o := h o (Nat.le_refl o) (by omega)
      have htail : m.read (o + 1) w = m'.read (o + 1) w :=
        read_congr fun k h1 h2 => h k (by omega) (by omega)
      simp only [read, hhead, htail]

/-- A memory whose bytes from `o` on are those of `v`. -/
theorem read_of_digits {m : Memory} : ∀ {o w v : Nat},
    (∀ k, k < w → m (o + k) = UInt8.ofNat (v / 256 ^ k)) → m.read o w = v % 256 ^ w
  | _, 0, v, _ => by simp only [read, pow_zero, Nat.mod_one]
  | o, w + 1, v, h => by
      have hhead : m o = UInt8.ofNat v := by
        simpa only [Nat.add_zero, pow_zero, Nat.div_one] using h 0 (by omega)
      have htail : m.read (o + 1) w = v / 256 % 256 ^ w := by
        refine read_of_digits ?_
        intro k hk
        have := h (k + 1) (by omega)
        rwa [pow_succ', ← Nat.div_div_eq_div_mul, ← Nat.add_assoc, Nat.add_right_comm] at this
      rw [read, hhead, htail, pow_succ', Nat.mod_mul, UInt8.toNat_ofNat']

/-- The first `n` bytes, as they go into a packet. -/
def take (n : Nat) : List UInt8 := (List.range n).map m

/-- A received packet copied over the start of a memory. -/
def overlay (packet : List UInt8) : Memory := fun k => packet.getD k (m k)

/-- The field at `o` of a packet, where the packet reaches that far. -/
def field (packet : List UInt8) (o w : Nat) : Option Nat :=
  if o + w ≤ packet.length then some (read (fun k => packet.getD k 0) o w) else none

theorem field_isSome {packet : List UInt8} {o w : Nat} :
    (field packet o w).isSome ↔ o + w ≤ packet.length := by
  unfold field
  split
  · rename_i h
    exact iff_of_true rfl h
  · rename_i h
    exact iff_of_false Bool.noConfusion h

/-- A field that the packet has is read from the packet. -/
theorem read_overlay_field {packet : List UInt8} {o w v : Nat} (h : field packet o w = some v) :
    (m.overlay packet).read o w = v := by
  unfold field at h
  split at h
  · rename_i hle
    cases h
    refine read_congr fun k _ hk => ?_
    have hlt : k < packet.length := by omega
    simp only [overlay, List.getD_eq_getElem?_getD, List.getElem?_eq_getElem hlt, Option.getD_some]
  · cases h

theorem overlay_take_lt {n k : Nat} (h : k < n) : m'.overlay (m.take n) k = m k := by
  simp only [overlay, take, List.getD_eq_getElem?_getD, List.getElem?_map,
    List.getElem?_range h, Option.map_some, Option.getD_some]

theorem overlay_take_ge {n k : Nat} (h : n ≤ k) : m'.overlay (m.take n) k = m' k := by
  have hout : (m.take n)[k]? = none := by
    rw [List.getElem?_eq_none_iff, take, List.length_map, List.length_range]; exact h
  simp only [overlay, List.getD_eq_getElem?_getD, hout, Option.getD_none]

theorem read_overlay_inside {n o w : Nat} (h : o + w ≤ n) :
    (m'.overlay (m.take n)).read o w = m.read o w :=
  read_congr fun _ _ hk => overlay_take_lt m m' (by omega)

theorem read_overlay_outside {n o w : Nat} (h : n ≤ o) :
    (m'.overlay (m.take n)).read o w = m'.read o w :=
  read_congr fun _ hk _ => overlay_take_ge m m' (by omega)

/-! ## Strings that a zero ends -/

/-- The first bytes up to a zero, `n` at most. -/
def string (n : Nat) : List UInt8 := (m.take n).takeWhile (· ≠ 0)

/-- What is written at `n` is not among the first `n` bytes. -/
theorem take_update (n : Nat) (b : UInt8) : take (Function.update m n b) n = m.take n := by
  refine List.map_congr_left ?_
  intro k hk
  exact Function.update_of_ne (Nat.ne_of_lt (List.mem_range.mp hk)) _ _

theorem string_update_self (n : Nat) (b : UInt8) :
    string (Function.update m n b) n = m.string n := by
  rw [string, string, take_update]

/-- A zero at `n` ends a string there at the latest. -/
theorem string_update (n : Nat) : string (Function.update m n 0) (n + 1) = m.string n := by
  have hlast : take (Function.update m n 0) (n + 1) = m.take n ++ [0] := by
    rw [← m.take_update n 0, take, take, List.range_succ, List.map_append, List.map_singleton,
      Function.update_self]
  rw [string, string, hlast, List.takeWhile_append]
  split
  · rename_i hfull
    rw [List.takeWhile_cons_of_neg (by decide), List.append_nil]
    exact (List.takeWhile_prefix _).eq_of_length hfull |>.symm
  · rfl

/-- After an overlay: the packet, then what was there before. -/
theorem take_overlay {packet : List UInt8} {n : Nat} (h : packet.length ≤ n) :
    (m.overlay packet).take n
      = packet ++ (List.range (n - packet.length)).map fun k => m (packet.length + k) := by
  refine List.ext_getElem? ?_
  intro k
  by_cases hk : k < packet.length
  · rw [List.getElem?_append_left hk, take, List.getElem?_map, List.getElem?_range (by omega)]
    simp only [Option.map_some, overlay, List.getD_eq_getElem?_getD, List.getElem?_eq_getElem hk,
      Option.getD_some]
  · have hle : packet.length ≤ k := Nat.le_of_not_lt hk
    have hnone : packet[k]? = none := List.getElem?_eq_none_iff.mpr hle
    rw [List.getElem?_append_right hle, take, List.getElem?_map, List.getElem?_map]
    by_cases hn : k < n
    · rw [List.getElem?_range hn, List.getElem?_range (by omega)]
      simp only [Option.map_some, overlay, List.getD_eq_getElem?_getD, hnone, Option.getD_none,
        Nat.add_sub_cancel' hle]
    · rw [List.getElem?_eq_none_iff.mpr (by simpa using hn),
        List.getElem?_eq_none_iff.mpr (by simp; omega)]
      rfl

/-- The string is that of the packet alone exactly if the packet has a zero, or
fills the memory, or a zero is left behind it. -/
theorem string_overlay_iff {packet : List UInt8} {n : Nat} (h : packet.length ≤ n) :
    (m.overlay packet).string n = packet.takeWhile (· ≠ 0)
      ↔ 0 ∈ packet ∨ packet.length = n ∨ m packet.length = 0 := by
  rw [string, take_overlay m h]
  by_cases hzero : (0 : UInt8) ∈ packet
  · -- the string ends inside the packet
    have hshort : (packet.takeWhile (· ≠ 0)).length ≠ packet.length := by
      intro hlen
      have hall := (List.takeWhile_prefix (p := fun b : UInt8 => decide (b ≠ 0))
        (l := packet)).eq_of_length hlen
      have hmem := List.mem_takeWhile_imp (hall.symm ▸ hzero)
      exact absurd hmem (by decide)
    rw [List.takeWhile_append, if_neg hshort]
    exact iff_of_true rfl (.inl hzero)
  · have hall : packet.takeWhile (· ≠ 0) = packet := by
      rw [List.takeWhile_eq_self_iff]
      intro b hb
      have hne : b ≠ 0 := fun h0 => hzero (h0 ▸ hb)
      simpa using hne
    rw [List.takeWhile_append, hall, if_pos rfl]
    simp only [hzero, false_or, List.append_right_eq_self]
    cases hrest : n - packet.length with
    | zero => exact iff_of_true rfl (.inl (by omega))
    | succ k =>
        have hne : packet.length ≠ n := by omega
        rw [List.range_succ_eq_map, List.map_cons, List.takeWhile_cons, Nat.add_zero]
        simp only [hne, false_or]
        by_cases hnext : m packet.length = 0
        · simp [hnext]
        · simp [hnext]

end Memory

end DistributAr.Lib
