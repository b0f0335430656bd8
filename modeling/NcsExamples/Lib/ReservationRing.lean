import Mathlib.Data.List.Basic
import Mathlib.Data.Nat.ModEq
import Mathlib.Tactic.Common

/-! # Rings with reservations

A ring buffer whose producer and consumer work in place. A *claim* reserves the next contiguous
area: it advances the head of its side and hands out the area. The matching *finish* commits, or
consumes, some of it: it advances the tail of its side and takes the head back to the tail.
Positions count up without bound, and position `p` lives in slot `p % size`.

A side that finishes what it claims keeps the ring a queue: with no reservation left open, a claim
followed by a finish appends to the contents (`contents_putFinish`), or removes from their front
(`take_area_append_contents`). -/

namespace NcsExamples

/-- A ring of `size` slots with the reservations of its two sides. -/
structure ReservationRing (α : Type*) where
  /-- The number of slots. -/
  size : ℕ
  /-- What the slots hold. -/
  slots : ℕ → α
  /-- The position after the area the producer has claimed. -/
  putHead : ℕ
  /-- The position after the committed elements. -/
  putTail : ℕ
  /-- The position after the area the consumer has claimed. -/
  getHead : ℕ
  /-- The position of the first element that is not consumed yet. -/
  getTail : ℕ

namespace ReservationRing

variable {α : Type*}

/-! ## Operations -/

/-- A ring without elements. -/
def empty (size : ℕ) (a : α) : ReservationRing α := ⟨size, fun _ => a, 0, 0, 0, 0⟩

/-- The number of slots that are neither claimed by the producer nor hold an element. -/
def space (r : ReservationRing α) : ℕ := r.size - (r.putHead - r.getTail)

/-- The number of elements that are not claimed by the consumer yet. -/
def available (r : ReservationRing α) : ℕ := r.putTail - r.getHead

/-- The length of the area that a claim of `want` elements by the producer gets. -/
def putLen (r : ReservationRing α) (want : ℕ) : ℕ :=
  min (min want r.space) (r.size - r.putHead % r.size)

/-- The producer claims `want` elements. The area it gets starts in slot `r.putHead % r.size`. -/
def putClaim (r : ReservationRing α) (want : ℕ) : ReservationRing α :=
  { r with putHead := r.putHead + r.putLen want }

/-- The producer commits `n` of the claimed elements, unless it claimed fewer. -/
def putFinish (r : ReservationRing α) (n : ℕ) : ReservationRing α :=
  if n ≤ r.putHead - r.putTail then { r with putTail := r.putTail + n, putHead := r.putTail + n }
  else r

/-- The length of the area that a claim of `want` elements by the consumer gets. -/
def getLen (r : ReservationRing α) (want : ℕ) : ℕ :=
  min (min want r.available) (r.size - r.getHead % r.size)

/-- The consumer claims `want` elements. The area it gets starts in slot `r.getHead % r.size`. -/
def getClaim (r : ReservationRing α) (want : ℕ) : ReservationRing α :=
  { r with getHead := r.getHead + r.getLen want }

/-- The consumer gives back the first `n` of the claimed elements, unless it claimed fewer. -/
def getFinish (r : ReservationRing α) (n : ℕ) : ReservationRing α :=
  if n ≤ r.getHead - r.getTail then { r with getTail := r.getTail + n, getHead := r.getTail + n }
  else r

/-- The elements `as` are written to the slots from `slot` on. -/
def write (r : ReservationRing α) (slot : ℕ) (as : List α) : ReservationRing α :=
  { r with slots := fun j => if slot ≤ j then as[j - slot]?.getD (r.slots j) else r.slots j }

/-- The area of `len` slots from `slot` on. -/
def area (r : ReservationRing α) (slot len : ℕ) : List α :=
  (List.range len).map fun i => r.slots (slot + i)

/-- The element at a position. -/
def element (r : ReservationRing α) (p : ℕ) : α := r.slots (p % r.size)

/-- The committed elements that are not consumed yet. -/
def contents (r : ReservationRing α) : List α :=
  (List.range (r.putTail - r.getTail)).map fun i => r.element (r.getTail + i)

/-- A claim of the producer alone moves no element. -/
@[simp] theorem contents_putClaim (r : ReservationRing α) (want : ℕ) :
    (r.putClaim want).contents = r.contents := rfl

/-- A claim of the consumer alone moves no element. -/
@[simp] theorem contents_getClaim (r : ReservationRing α) (want : ℕ) :
    (r.getClaim want).contents = r.contents := rfl

/-- The ring is empty when the tails meet. -/
theorem contents_eq_nil {r : ReservationRing α} : r.contents = [] ↔ r.putTail ≤ r.getTail := by
  rw [contents, List.map_eq_nil_iff, List.range_eq_nil, Nat.sub_eq_zero_iff_le]

@[simp] theorem size_putFinish (r : ReservationRing α) (n : ℕ) : (r.putFinish n).size = r.size := by
  unfold putFinish
  split <;> rfl

@[simp] theorem size_getFinish (r : ReservationRing α) (n : ℕ) : (r.getFinish n).size = r.size := by
  unfold getFinish
  split <;> rfl

@[simp] theorem length_area (r : ReservationRing α) (slot len : ℕ) :
    (r.area slot len).length = len := by
  rw [area, List.length_map, List.length_range]

@[simp] theorem slots_putFinish (r : ReservationRing α) (n : ℕ) :
    (r.putFinish n).slots = r.slots := by
  unfold putFinish
  split <;> rfl

@[simp] theorem slots_getFinish (r : ReservationRing α) (n : ℕ) :
    (r.getFinish n).slots = r.slots := by
  unfold getFinish
  split <;> rfl

/-- A slot holds one of the elements written, or what it has held. -/
theorem slots_write_cases (r : ReservationRing α) (slot : ℕ) (as : List α) (j : ℕ) :
    (r.write slot as).slots j ∈ as ∨ (r.write slot as).slots j = r.slots j := by
  simp only [write]
  split
  · cases h : as[j - slot]? with
    | none => exact .inr rfl
    | some a => exact .inl (List.mem_of_getElem? h)
  · exact .inr rfl

/-- The tails count the elements. -/
theorem length_contents (r : ReservationRing α) : r.contents.length = r.putTail - r.getTail := by
  rw [contents, List.length_map, List.length_range]

/-- A write to the slots adds no element. -/
@[simp] theorem length_contents_write (r : ReservationRing α) (slot : ℕ) (as : List α) :
    (r.write slot as).contents.length = r.contents.length := by
  rw [length_contents, length_contents]
  rfl

/-! ## Valid rings -/

/-- The positions are in order and no slot is used twice. -/
structure Valid (r : ReservationRing α) : Prop where
  size_pos : 0 < r.size
  getTail_le : r.getTail ≤ r.getHead
  getHead_le : r.getHead ≤ r.putTail
  putTail_le : r.putTail ≤ r.putHead
  putHead_le : r.putHead ≤ r.getTail + r.size

theorem valid_empty {size : ℕ} (hsize : 0 < size) (a : α) : (empty size a).Valid :=
  ⟨hsize, le_rfl, le_rfl, le_rfl, Nat.zero_le _⟩

theorem Valid.putClaim {r : ReservationRing α} (h : r.Valid) (want : ℕ) :
    (r.putClaim want).Valid := by
  obtain ⟨hsize, hget, hmid, hput, hfull⟩ := h
  refine ⟨hsize, hget, hmid, ?_, ?_⟩ <;>
    simp only [ReservationRing.putClaim, putLen, space] <;> omega

theorem Valid.putFinish {r : ReservationRing α} (h : r.Valid) (n : ℕ) : (r.putFinish n).Valid := by
  obtain ⟨hsize, hget, hmid, hput, hfull⟩ := h
  unfold ReservationRing.putFinish
  split
  · exact ⟨hsize, hget, by simp only; omega, le_rfl, by simp only; omega⟩
  · exact ⟨hsize, hget, hmid, hput, hfull⟩

theorem Valid.getClaim {r : ReservationRing α} (h : r.Valid) (want : ℕ) :
    (r.getClaim want).Valid := by
  obtain ⟨hsize, hget, hmid, hput, hfull⟩ := h
  refine ⟨hsize, ?_, ?_, hput, hfull⟩ <;>
    simp only [ReservationRing.getClaim, getLen, available] <;> omega

theorem Valid.getFinish {r : ReservationRing α} (h : r.Valid) (n : ℕ) : (r.getFinish n).Valid := by
  obtain ⟨hsize, hget, hmid, hput, hfull⟩ := h
  unfold ReservationRing.getFinish
  split
  · exact ⟨hsize, le_rfl, by simp only; omega, hput, by simp only; omega⟩
  · exact ⟨hsize, hget, hmid, hput, hfull⟩

theorem Valid.write {r : ReservationRing α} (h : r.Valid) (slot : ℕ) (as : List α) :
    (r.write slot as).Valid := ⟨h.1, h.2, h.3, h.4, h.5⟩

/-- A finish leaves no reservation open. -/
theorem getHead_getFinish {r : ReservationRing α} {n : ℕ} (hn : n ≤ r.getHead - r.getTail) :
    (r.getFinish n).getHead = (r.getFinish n).getTail := by
  rw [ReservationRing.getFinish, if_pos hn]

/-- Without an open reservation the consumer gets an area exactly if there are elements. -/
theorem getLen_pos {r : ReservationRing α} (h : r.Valid) (hopen : r.getHead = r.getTail) {want : ℕ}
    (hwant : 0 < want) : 0 < r.getLen want ↔ r.contents ≠ [] := by
  have hwrap : 0 < r.size - r.getHead % r.size := Nat.sub_pos_of_lt (Nat.mod_lt _ h.size_pos)
  rw [ne_eq, contents_eq_nil, getLen, available]
  omega

/-- A valid ring has no more elements than slots. -/
theorem Valid.length_contents_le {r : ReservationRing α} (h : r.Valid) :
    r.contents.length ≤ r.size := by
  have hput := h.putTail_le
  have hfull := h.putHead_le
  rw [length_contents]
  omega

/-- A finish of the producer commits as many elements as it says, whatever else has been claimed. -/
theorem Valid.length_contents_putFinish {r : ReservationRing α} (h : r.Valid) {n : ℕ}
    (hn : n ≤ r.putHead - r.putTail) :
    (r.putFinish n).contents.length = r.contents.length + n := by
  have hget := h.getTail_le
  have hmid := h.getHead_le
  rw [length_contents, length_contents, ReservationRing.putFinish, if_pos hn]
  simp only
  omega

/-- A finish of the consumer gives back as many elements as it says, whatever else has been
claimed. -/
theorem Valid.length_contents_getFinish {r : ReservationRing α} (h : r.Valid) {n : ℕ}
    (hn : n ≤ r.getHead - r.getTail) :
    n + (r.getFinish n).contents.length = r.contents.length := by
  have hmid := h.getHead_le
  rw [length_contents, length_contents, ReservationRing.getFinish, if_pos hn]
  simp only
  omega

/-- A finish that commits elements leaves some. -/
theorem contents_putFinish_ne_nil {r : ReservationRing α} (h : r.Valid) {n : ℕ} (hpos : 0 < n)
    (hn : n ≤ r.putHead - r.putTail) : (r.putFinish n).contents ≠ [] := by
  have hget := h.getTail_le
  have hmid := h.getHead_le
  rw [ne_eq, contents_eq_nil, ReservationRing.putFinish, if_pos hn]
  simp only
  omega

/-! ## Claim and finish -/

/-- An area that does not reach past the last slot holds the elements at the positions from its
first one on. -/
theorem slot_add {size p i : ℕ} (hi : i < size - p % size) : (p + i) % size = p % size + i := by
  rw [← Nat.mod_add_mod, Nat.mod_eq_of_lt (by omega)]

/-- Two positions less than a round apart live in different slots. -/
theorem slot_ne {size p q : ℕ} (hlt : p < q) (hround : q < p + size) : p % size ≠ q % size := by
  intro heq
  have hdvd : size ∣ q - p := (Nat.modEq_iff_dvd' hlt.le).mp heq
  exact absurd (Nat.le_of_dvd (by omega) hdvd) (by omega)

/-- A write to claimed slots does not touch the elements. -/
theorem element_write_of_lt {r : ReservationRing α} {as : List α} {q p : ℕ} (hlt : p < q)
    (hround : q + as.length ≤ p + r.size) (hlen : as.length ≤ r.size - q % r.size) :
    (r.write (q % r.size) as).element p = r.element p := by
  simp only [element, write]
  split
  · next hslot =>
    -- the slot of `p` would be that of a position between `q` and `q + as.length`
    have hout : as.length ≤ p % r.size - q % r.size := by
      by_contra hin
      have hslot' : (q + (p % r.size - q % r.size)) % r.size = q % r.size + _ := slot_add (by omega)
      have hne : p % r.size ≠ (q + (p % r.size - q % r.size)) % r.size :=
        slot_ne (by omega) (by omega)
      exact hne (by rw [hslot']; omega)
    rw [List.getElem?_eq_none hout, Option.getD_none]
  · rfl

/-- A write to claimed slots puts the elements at the positions from the first one on. -/
theorem element_write_add {r : ReservationRing α} {as : List α} {q i : ℕ} (hi : i < as.length)
    (hlen : as.length ≤ r.size - q % r.size) :
    (r.write (q % r.size) as).element (q + i) = as[i] := by
  have hslot : (q + i) % r.size = q % r.size + i := slot_add (by omega)
  simp only [element, write, hslot, Nat.le_add_right, if_true, Nat.add_sub_cancel_left,
    List.getElem?_eq_getElem hi, Option.getD_some]

/-- **Put.** Without an open reservation, a claim, a write to the area and a finish append to the
contents. -/
theorem contents_putFinish {r : ReservationRing α} (h : r.Valid) (hopen : r.putHead = r.putTail)
    {want : ℕ} {as : List α} (hlen : as.length ≤ r.putLen want) :
    (((r.putClaim want).write (r.putHead % r.size) as).putFinish as.length).contents =
      r.contents ++ as := by
  obtain ⟨hsize, hget, hmid, hput, hfull⟩ := h
  have hspace : r.putHead + as.length ≤ r.getTail + r.size := by
    simp only [putLen, space] at hlen
    omega
  have hwrap : as.length ≤ r.size - r.putHead % r.size := by
    simp only [putLen] at hlen
    omega
  have hclaimed : as.length ≤ r.putHead + r.putLen want - r.putTail := by omega
  -- element by element: the old ones are not touched by the write, the new ones are written
  refine List.ext_getElem ?_ fun i hi hi' => ?_
  · simp only [contents, putFinish, write, putClaim, hclaimed, if_true, List.length_map,
      List.length_range, List.length_append]
    omega
  · have helement :
        (((r.putClaim want).write (r.putHead % r.size) as).putFinish as.length).contents[i] =
        (r.write (r.putHead % r.size) as).element (r.getTail + i) := by
      simp only [contents, putFinish, write, putClaim, hclaimed, if_true, List.getElem_map,
        List.getElem_range, element]
    rw [helement]
    by_cases hold : i < r.contents.length
    · rw [List.getElem_append_left hold]
      have hi'' : i < r.putTail - r.getTail := by simpa [contents] using hold
      rw [element_write_of_lt (by omega) (by omega) hwrap]
      simp [contents]
    · rw [List.getElem_append_right (by omega)]
      have hcount : r.contents.length = r.putTail - r.getTail := by simp [contents]
      have hlt : i - r.contents.length < as.length := by
        rw [List.length_append] at hi'
        omega
      rw [← element_write_add hlt hwrap,
        show r.putHead + (i - r.contents.length) = r.getTail + i by omega]

/-- **Get.** Without an open reservation, the first elements of the claimed area are the first of
the contents, and a finish removes them. -/
theorem take_area_append_contents {r : ReservationRing α} (h : r.Valid)
    (hopen : r.getHead = r.getTail) {want n : ℕ} (hn : n ≤ r.getLen want) :
    (r.area (r.getHead % r.size) (r.getLen want)).take n ++
      ((r.getClaim want).getFinish n).contents = r.contents := by
  obtain ⟨hsize, hget, hmid, hput, hfull⟩ := h
  have havail : n ≤ r.putTail - r.getTail := by
    simp only [getLen, available] at hn
    omega
  have hwrap : n ≤ r.size - r.getHead % r.size := by
    simp only [getLen] at hn
    omega
  have hclaimed : n ≤ r.getHead + r.getLen want - r.getTail := by omega
  -- the area and what the finish leaves are two parts of one range of positions
  have hfirst : (r.area (r.getHead % r.size) (r.getLen want)).take n =
      (List.range n).map fun i => r.element (r.getTail + i) := by
    rw [area, ← List.map_take, List.take_range, Nat.min_eq_left hn]
    apply List.map_congr_left
    intro i hi
    rw [element, ← hopen, slot_add (by have := List.mem_range.mp hi; omega)]
  have hrest : ((r.getClaim want).getFinish n).contents =
      (List.range (r.putTail - r.getTail - n)).map fun i => r.element (r.getTail + (n + i)) := by
    simp only [contents, getFinish, getClaim, hclaimed, if_true, Nat.sub_sub, Nat.add_assoc,
      element]
  rw [hfirst, hrest, contents]
  obtain ⟨m, hm⟩ := Nat.exists_eq_add_of_le havail
  rw [hm, Nat.add_sub_cancel_left, List.range_add, List.map_append, List.map_map]
  rfl

end ReservationRing

end NcsExamples
