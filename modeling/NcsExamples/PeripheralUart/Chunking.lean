import NcsExamples.PeripheralUart.Transmit

/-! # BLE to UART: how a payload is cut

The chunks of a payload without the machine's integers: all but the last one fill `tx->data` up to
the byte kept for the LF, and the last one has the LF appended if the payload ends in CR. The 16-bit
arithmetic of `bt_receive_cb` computes the same chunks: nothing wraps while the position is inside
the payload. -/

namespace NcsExamples.PeripheralUart

/-! ## One iteration -/

/-- The bytes that end a payload in the UART's stream: LF after a payload that ends in CR. -/
def Payload.lineEnd (p : Payload) : List UInt8 := if p.data.getLast? = some cr then [lf] else []

/-- The number of payload bytes in the chunk that starts at `pos`. -/
def Payload.cut (size : ℕ) (p : Payload) (pos : ℕ) : ℕ := min (size - 1) (p.len - pos)

/-- The bytes of the chunk that starts at `pos`. -/
def Payload.chunkBytes (size : ℕ) (p : Payload) (pos : ℕ) : List UInt8 :=
  (p.data.drop pos).take (p.cut size pos) ++
    if pos + p.cut size pos = p.len then p.lineEnd else []

/-- The chunk that starts at `pos`, in allocation number `alloc`. -/
def Payload.chunk (size alloc : ℕ) (p : Payload) (pos : ℕ) : UartData :=
  ⟨alloc, p.chunkBytes size pos, (p.chunkBytes size pos).length⟩

/-- Inside the payload, the length of a chunk is the rest of the payload cut to `size - 1` bytes. -/
theorem chunkLen_eq {size len pos : ℕ} (hsize : size ≤ 65535) (hpos : pos ≤ len)
    (hlen : len < 65536) : chunkLen size len pos = min (size - 1) (len - pos) := by
  simp only [chunkLen, toSizeT_sub hpos hlen]
  split <;> omega

variable {size pos : ℕ} {p : Payload}

/-- A chunk inside the payload has a byte of it. -/
theorem Payload.cut_pos (h2 : 2 ≤ size) (hpos : pos < p.len) : 0 < p.cut size pos := by
  unfold Payload.cut
  omega

/-- A chunk ends inside the payload. -/
theorem Payload.add_cut_le (hpos : pos ≤ p.len) : pos + p.cut size pos ≤ p.len := by
  unfold Payload.cut
  omega

/-- The test `data[len - 1] == '\r'`, of a payload that is not empty. -/
theorem Payload.getD_last_eq_cr_iff (hpos : pos < p.len) :
    p.data.getD (p.len - 1) 0 = cr ↔ p.data.getLast? = some cr := by
  have hlt : p.len - 1 < p.data.length := by
    have : p.len = p.data.length := rfl
    omega
  rw [List.getD_eq_getElem?_getD, List.getLast?_eq_getElem?, List.getElem?_eq_getElem hlt,
    Option.getD_some, Option.some.injEq]

/-- **Nothing wraps.** Inside the payload the 16-bit iteration computes the chunk and the position
that follow from the payload alone. -/
theorem fillChunk_eq (hsize : size ≤ 65535) (alloc : ℕ) (hpos : pos < p.len) :
    fillChunk size alloc p pos = (p.chunk size alloc pos, pos + p.cut size pos) := by
  have hlen : p.len < 65536 := p.length_lt
  have hcut : chunkLen size p.len pos = p.cut size pos := chunkLen_eq hsize hpos.le hlen
  have hend : pos + p.cut size pos ≤ p.len := Payload.add_cut_le hpos.le
  have hmod : (pos + p.cut size pos) % 65536 = pos + p.cut size pos := Nat.mod_eq_of_lt (by omega)
  have hbytes : ((p.data.drop pos).take (p.cut size pos)).length = p.cut size pos := by
    rw [List.length_take, List.length_drop]
    have : p.len = p.data.length := rfl
    unfold Payload.cut
    omega
  simp only [fillChunk, hcut, hmod, Payload.getD_last_eq_cr_iff hpos, Payload.chunk,
    Payload.chunkBytes, Payload.lineEnd]
  by_cases hlast : pos + p.cut size pos = p.len
  · by_cases hcr : p.data.getLast? = some cr
    · have hmod' : (p.cut size pos + 1) % 65536 = p.cut size pos + 1 := by
        apply Nat.mod_eq_of_lt
        unfold Payload.cut
        omega
      simp only [hlast, hcr, and_self, if_true, hmod', List.length_append, hbytes,
        List.length_singleton]
    · simp only [hlast, hcr, and_false, if_true, if_false, List.append_nil, hbytes]
  · simp only [hlast, false_and, if_false, List.append_nil, hbytes]

/-- A chunk inside the payload is not empty and fits into `tx->data`. -/
theorem Payload.chunk_len_mem (h2 : 2 ≤ size) (alloc : ℕ) (hpos : pos < p.len) :
    1 ≤ (p.chunk size alloc pos).len ∧ (p.chunk size alloc pos).len ≤ size := by
  have hcut := Payload.cut_pos h2 hpos
  have hle : p.cut size pos ≤ size - 1 := min_le_left _ _
  have hrest : p.cut size pos ≤ p.len - pos := min_le_right _ _
  have hend : (if pos + p.cut size pos = p.len then p.lineEnd else []).length ≤ 1 := by
    unfold Payload.lineEnd
    split
    · split <;> simp
    · simp
  have hlen : p.len = p.data.length := rfl
  simp only [Payload.chunk, Payload.chunkBytes, List.length_append, List.length_take,
    List.length_drop]
  omega

/-! ## All iterations -/

/-- The chunks from `pos` on, with their allocations numbered from `alloc`. -/
def Payload.chunks (size : ℕ) (p : Payload) (alloc pos : ℕ) : List UartData :=
  if pos < p.len ∧ 2 ≤ size then
    p.chunk size alloc pos :: p.chunks size (alloc + 1) (pos + p.cut size pos)
  else []
termination_by p.len - pos
decreasing_by
  have hcut : 0 < p.cut size pos := Payload.cut_pos ‹_ ∧ _›.2 ‹_ ∧ _›.1
  omega

/-- Inside the payload there is a next chunk. -/
theorem Payload.chunks_cons (h2 : 2 ≤ size) (alloc : ℕ) (hpos : pos < p.len) :
    p.chunks size alloc pos =
      p.chunk size alloc pos :: p.chunks size (alloc + 1) (pos + p.cut size pos) := by
  rw [Payload.chunks, if_pos ⟨hpos, h2⟩]

/-- At the end of the payload there is none. -/
theorem Payload.chunks_nil (alloc : ℕ) : p.chunks size alloc p.len = [] := by
  rw [Payload.chunks, if_neg fun h => lt_irrefl _ h.1]

/-- Every chunk is one of those inside the payload. -/
theorem Payload.exists_of_mem_chunks {alloc : ℕ} {c : UartData} (hc : c ∈ p.chunks size alloc pos) :
    2 ≤ size ∧ ∃ alloc' pos', pos' < p.len ∧ c = p.chunk size alloc' pos' := by
  fun_induction Payload.chunks size p alloc pos with
  | case1 alloc pos h ih =>
    rcases List.mem_cons.mp hc with rfl | hc
    · exact ⟨h.2, alloc, pos, h.1, rfl⟩
    · exact ih hc
  | case2 => cases hc

/-- **The chunks are the payload.** From a position inside the payload on, their bytes are the rest
of the payload and the end of the line. -/
theorem Payload.flatMap_chunks (h2 : 2 ≤ size) {alloc : ℕ} (hpos : pos < p.len) :
    (p.chunks size alloc pos).flatMap UartData.data = p.data.drop pos ++ p.lineEnd := by
  fun_induction Payload.chunks size p alloc pos with
  | case1 alloc pos h ih =>
    have hend : pos + p.cut size pos ≤ p.len := Payload.add_cut_le hpos.le
    rw [List.flatMap_cons]
    by_cases hlast : pos + p.cut size pos = p.len
    · -- the last chunk takes all that is left
      have hnil : p.chunks size (alloc + 1) p.len = [] := Payload.chunks_nil (alloc + 1)
      rw [hlast, hnil, List.flatMap_nil, List.append_nil]
      simp only [Payload.chunk, Payload.chunkBytes, hlast, if_true]
      rw [List.take_of_length_le]
      rw [List.length_drop]
      have : p.len = p.data.length := rfl
      omega
    · rw [ih (lt_of_le_of_ne hend hlast)]
      simp only [Payload.chunk, Payload.chunkBytes, hlast, if_false, List.append_nil]
      rw [← List.append_assoc, ← List.drop_drop, List.take_append_drop]
  | case2 alloc pos h => exact absurd ⟨hpos, h2⟩ h

end NcsExamples.PeripheralUart
