import Mathlib.Data.List.Basic
import Mathlib.Data.List.Infix
import Mathlib.Data.List.TakeWhile
import Mathlib.Tactic.Common

/-! # Chunked texts

A text is sent as chunks: the length of the chunk in hexadecimal, a line end, the chunk itself and a
line end, and a chunk of length 0 at the end. A reader finds the end of what it has been sent from
the text alone. It gets back the chunks that were sent, whatever comes after them, and it takes no
proper beginning of a text for the whole of it. -/

namespace NcsExamples.ChunkedText

/-! ## Numbers -/

/-- A hexadecimal digit. -/
def isHexDigit (c : Char) : Bool := c.isDigit || (97 ≤ c.toNat && c.toNat ≤ 102)

/-- The value of a hexadecimal digit. -/
def hexDigitValue (c : Char) : ℕ := if c.isDigit then c.toNat - 48 else c.toNat - 87

/-- The value of a list of hexadecimal digits. -/
def hexValue (s : List Char) : ℕ := s.foldl (fun n c => 16 * n + hexDigitValue c) 0

theorem hexValue_append_singleton (s : List Char) (c : Char) :
    hexValue (s ++ [c]) = 16 * hexValue s + hexDigitValue c := by
  simp only [hexValue, List.foldl_append, List.foldl_cons, List.foldl_nil]

/-- The digits below sixteen are read as what they are. -/
theorem hexDigit_digitChar {d : ℕ} (h : d < 16) :
    isHexDigit (Nat.digitChar d) = true ∧ hexDigitValue (Nat.digitChar d) = d := by
  have hall : ∀ d < 16,
      isHexDigit (Nat.digitChar d) = true ∧ hexDigitValue (Nat.digitChar d) = d := by decide
  exact hall d h

/-- Every number is read back from its digits. -/
theorem hexValue_toDigits (n : ℕ) : (∀ c ∈ Nat.toDigits 16 n, isHexDigit c = true) ∧
    hexValue (Nat.toDigits 16 n) = n := by
  induction n using Nat.strongRecOn with
  | ind n ih =>
    rcases Nat.lt_or_ge n 16 with hlt | hge
    · obtain ⟨hdigit, hvalue⟩ := hexDigit_digitChar hlt
      rw [Nat.toDigits_of_lt_base hlt]
      simpa [hexValue] using ⟨hdigit, hvalue⟩
    · obtain ⟨hdigits, hvalues⟩ := ih (n / 16) (by omega)
      obtain ⟨hdigit, hvalue⟩ := hexDigit_digitChar (Nat.mod_lt n (by decide : 0 < 16))
      rw [Nat.toDigits_of_base_le (by decide) hge]
      constructor
      · intro c hc
        rcases List.mem_append.mp hc with hc | hc
        · exact hdigits c hc
        · rw [List.mem_singleton.mp hc]
          exact hdigit
      · rw [hexValue_append_singleton, hvalues, hvalue]
        omega

/-! ## The reader -/

/-- A line end. -/
def crlf : List Char := ['\r', '\n']

/-- What follows a line end. -/
def afterCrlf : List Char → Option (List Char)
  | '\r' :: '\n' :: s => some s
  | _ => none

/-- The chunk at the front of a text, and what comes after it. -/
def readChunk (s : List Char) : Option (List Char × List Char) :=
  let digits := s.takeWhile isHexDigit
  if digits = [] then none
  else (afterCrlf (s.dropWhile isHexDigit)).bind fun s =>
    let n := hexValue digits
    if n ≤ s.length then (afterCrlf (s.drop n)).map fun rest => (s.take n, rest) else none

theorem afterCrlf_eq_some {s rest : List Char} : afterCrlf s = some rest ↔ s = crlf ++ rest := by
  unfold afterCrlf crlf
  constructor
  · intro h
    split at h
    · rw [Option.some.inj h]
      rfl
    · cases h
  · rintro rfl
    rfl

/-- What the reader finds at the front of a text. -/
theorem readChunk_eq_some {s data rest : List Char} : readChunk s = some (data, rest) ↔
    ∃ digits, digits ≠ [] ∧ (∀ c ∈ digits, isHexDigit c = true) ∧
      hexValue digits = data.length ∧ s = digits ++ crlf ++ data ++ crlf ++ rest := by
  unfold readChunk
  constructor
  · intro h
    obtain ⟨hne, h⟩ := Option.ite_none_left_eq_some.mp h
    obtain ⟨s', hs', h⟩ := Option.bind_eq_some_iff.mp h
    obtain ⟨hle, h⟩ := Option.ite_none_right_eq_some.mp h
    obtain ⟨rest', hrest, heq⟩ := Option.map_eq_some_iff.mp h
    obtain ⟨rfl, rfl⟩ := Prod.mk.inj heq
    refine ⟨s.takeWhile isHexDigit, hne, fun c hc => List.mem_takeWhile_imp hc, ?_, ?_⟩
    · exact (List.length_take_of_le hle).symm
    · -- put the text together again from what was taken off
      have hline := afterCrlf_eq_some.mp hs'
      have hdata := afterCrlf_eq_some.mp hrest
      calc s = s.takeWhile isHexDigit ++ s.dropWhile isHexDigit :=
            (List.takeWhile_append_dropWhile).symm
        _ = s.takeWhile isHexDigit ++ (crlf ++ s') := by rw [hline]
        _ = s.takeWhile isHexDigit ++ (crlf ++ (s'.take (hexValue (s.takeWhile isHexDigit)) ++
              (crlf ++ rest'))) := by rw [← hdata, List.take_append_drop]
        _ = _ := by simp only [List.append_assoc]
  · rintro ⟨digits, hne, hdigits, hvalue, rfl⟩
    -- the digits end where the line does: a carriage return is none
    have hline : ∀ s, (crlf ++ s).takeWhile isHexDigit = [] ∧
        (crlf ++ s).dropWhile isHexDigit = crlf ++ s := fun s => ⟨rfl, rfl⟩
    simp only [List.append_assoc]
    rw [List.takeWhile_append_of_pos hdigits, List.dropWhile_append_of_pos hdigits, (hline _).1,
      (hline _).2, List.append_nil, if_neg hne, afterCrlf_eq_some.mpr rfl, Option.bind_some, hvalue,
      if_pos (by simp), List.drop_left, List.take_left, afterCrlf_eq_some.mpr rfl, Option.map_some]

/-- A chunk takes something off the text. -/
theorem length_lt_of_readChunk {s data rest : List Char} (h : readChunk s = some (data, rest)) :
    rest.length < s.length := by
  obtain ⟨digits, -, -, -, rfl⟩ := readChunk_eq_some.mp h
  simp [crlf]
  omega

/-- The chunks of a text up to the empty one, and what comes after that. -/
def decode (s : List Char) : Option (List (List Char) × List Char) :=
  match _h : readChunk s with
  | none => none
  | some (data, rest) =>
    if data = [] then some ([], rest)
    else (decode rest).map fun (chunks, rest) => (data :: chunks, rest)
  termination_by s.length
  decreasing_by exact length_lt_of_readChunk _h

/-- What a text that starts with a chunk is read as. -/
theorem decode_of_readChunk {s data rest : List Char} (h : readChunk s = some (data, rest)) :
    decode s = if data = [] then some ([], rest)
      else (decode rest).map fun (chunks, rest) => (data :: chunks, rest) := by
  rw [decode]
  split
  · next hnone =>
    rw [hnone] at h
    cases h
  · next data' rest' hsome =>
    obtain ⟨rfl, rfl⟩ := Prod.mk.inj (Option.some.inj (hsome.symm.trans h))
    rfl

/-- How a text is read: its last chunk is empty, and the others are not. -/
theorem decode_eq_some {s rest : List Char} {chunks : List (List Char)} :
    decode s = some (chunks, rest) ↔ readChunk s = some ([], rest) ∧ chunks = [] ∨
      ∃ data tail chunks', readChunk s = some (data, tail) ∧ data ≠ [] ∧
        decode tail = some (chunks', rest) ∧ chunks = data :: chunks' := by
  constructor
  · intro h
    cases hread : readChunk s with
    | none =>
      -- `decode_of_readChunk` does not apply, since nothing was read
      rw [decode] at h
      split at h
      · cases h
      · next hsome =>
        rw [hread] at hsome
        cases hsome
    | some read =>
      obtain ⟨data, tail⟩ := read
      rw [decode_of_readChunk hread] at h
      split at h
      · next hempty =>
        obtain ⟨rfl, rfl⟩ := Prod.mk.inj (Option.some.inj h)
        rw [hempty]
        exact .inl ⟨rfl, rfl⟩
      · next hdata =>
        obtain ⟨⟨chunks', rest'⟩, hdecode, heq⟩ := Option.map_eq_some_iff.mp h
        obtain ⟨rfl, rfl⟩ := Prod.mk.inj heq
        exact .inr ⟨data, tail, chunks', rfl, hdata, hdecode, rfl⟩
  · rintro (⟨hread, rfl⟩ | ⟨data, tail, chunks', hread, hdata, hdecode, rfl⟩)
    · rw [decode_of_readChunk hread, if_pos rfl]
    · rw [decode_of_readChunk hread, if_neg hdata, hdecode, Option.map_some]

/-- A text takes something off the stream. -/
theorem length_lt_of_decode {s rest : List Char} {chunks : List (List Char)}
    (h : decode s = some (chunks, rest)) : rest.length < s.length := by
  induction chunks generalizing s with
  | nil =>
    rcases decode_eq_some.mp h with ⟨hread, -⟩ | ⟨_, _, _, -, -, -, heq⟩
    · exact length_lt_of_readChunk hread
    · cases heq
  | cons data chunks ih =>
    rcases decode_eq_some.mp h with ⟨-, heq⟩ | ⟨data', tail, chunks', hread, -, hdecode, heq⟩
    · cases heq
    · obtain ⟨rfl, rfl⟩ := List.cons.inj heq
      exact (ih hdecode).trans (length_lt_of_readChunk hread)

/-- What comes after a text does not matter to the reader. -/
theorem decode_append {s rest : List Char} {chunks : List (List Char)}
    (h : decode s = some (chunks, rest)) (more : List Char) :
    decode (s ++ more) = some (chunks, rest ++ more) := by
  have hread : ∀ {s data rest}, readChunk s = some (data, rest) →
      readChunk (s ++ more) = some (data, rest ++ more) := by
    intro s data rest hs
    obtain ⟨digits, hne, hdigits, hvalue, rfl⟩ := readChunk_eq_some.mp hs
    exact readChunk_eq_some.mpr ⟨digits, hne, hdigits, hvalue, by simp only [List.append_assoc]⟩
  induction chunks generalizing s with
  | nil =>
    rcases decode_eq_some.mp h with ⟨hs, -⟩ | ⟨_, _, _, -, -, -, heq⟩
    · exact decode_eq_some.mpr (.inl ⟨hread hs, rfl⟩)
    · cases heq
  | cons data chunks ih =>
    rcases decode_eq_some.mp h with ⟨-, heq⟩ | ⟨data', tail, chunks', hs, hdata, hdecode, heq⟩
    · cases heq
    · obtain ⟨rfl, rfl⟩ := List.cons.inj heq
      exact decode_eq_some.mpr (.inr ⟨data, _, chunks, hread hs, hdata, ih hdecode, rfl⟩)

/-- **No beginning is taken for the whole.** A text that is read to its end is not read at all as
long as its end is missing. -/
theorem decode_of_incomplete {s p : List Char} {chunks : List (List Char)}
    (h : decode s = some (chunks, [])) (hp : p <+: s) (hne : p ≠ s) : decode p = none := by
  obtain ⟨q, rfl⟩ := hp
  cases hread : decode p with
  | none => rfl
  | some read =>
    obtain ⟨chunks', rest⟩ := read
    have heq := (decode_append hread q).symm.trans h
    obtain ⟨-, hnil⟩ := Prod.mk.inj (Option.some.inj heq)
    obtain ⟨-, rfl⟩ := List.append_eq_nil_iff.mp hnil
    exact absurd (List.append_nil p).symm hne

/-- The texts that a reader finds in a stream, and the beginning of one more. -/
def messages (s : List Char) : List (List (List Char)) × List Char :=
  match _h : decode s with
  | none => ([], s)
  | some (chunks, rest) => (chunks :: (messages rest).1, (messages rest).2)
  termination_by s.length
  decreasing_by all_goals exact length_lt_of_decode _h

/-- A stream that starts with a text. -/
theorem messages_of_decode {s rest : List Char} {chunks : List (List Char)}
    (h : decode s = some (chunks, rest)) :
    messages s = (chunks :: (messages rest).1, (messages rest).2) := by
  rw [messages]
  split
  · next hnone =>
    rw [hnone] at h
    cases h
  · next chunks' rest' hsome =>
    obtain ⟨rfl, rfl⟩ := Prod.mk.inj (Option.some.inj (hsome.symm.trans h))
    rfl

/-- A stream that starts with no text. -/
theorem messages_of_none {s : List Char} (h : decode s = none) : messages s = ([], s) := by
  rw [messages]
  split
  · rfl
  · next hsome =>
    rw [hsome] at h
    cases h

/-- **Whole texts are read, and a beginning is kept.** -/
theorem messages_replicate {m p : List Char} {chunks : List (List Char)}
    (h : decode m = some (chunks, [])) (hp : p <+: m) (hne : p ≠ m) (k : ℕ) :
    messages ((List.replicate k m).flatten ++ p) = (List.replicate k chunks, p) := by
  induction k with
  | zero => exact messages_of_none (decode_of_incomplete h hp hne)
  | succ k ih =>
    rw [List.replicate_succ, List.flatten_cons, List.append_assoc,
      messages_of_decode (decode_append h _), List.nil_append, ih, List.replicate_succ]

/-! ## The writer -/

/-- The text of a chunk. -/
def encodeChunk (data : List Char) : List Char :=
  Nat.toDigits 16 data.length ++ crlf ++ data ++ crlf

/-- The text of the chunks, and of the empty one after them. -/
def encode (chunks : List (List Char)) : List Char :=
  chunks.flatMap encodeChunk ++ encodeChunk []

/-- A chunk is read back. -/
theorem readChunk_encodeChunk (data rest : List Char) :
    readChunk (encodeChunk data ++ rest) = some (data, rest) := by
  obtain ⟨hdigits, hvalue⟩ := hexValue_toDigits data.length
  exact readChunk_eq_some.mpr
    ⟨Nat.toDigits 16 data.length, Nat.toDigits_ne_nil, hdigits, hvalue, rfl⟩

/-- **Round trip.** Chunks that are not empty are read back, whatever comes after them. -/
theorem decode_encode {chunks : List (List Char)} (h : ∀ data ∈ chunks, data ≠ [])
    (rest : List Char) : decode (encode chunks ++ rest) = some (chunks, rest) := by
  induction chunks with
  | nil => exact decode_eq_some.mpr (.inl ⟨readChunk_encodeChunk [] rest, rfl⟩)
  | cons data chunks ih =>
    obtain ⟨hdata, hchunks⟩ := List.forall_mem_cons.mp h
    have hsplit : encode (data :: chunks) ++ rest =
        encodeChunk data ++ (encode chunks ++ rest) := by
      simp only [encode, List.flatMap_cons, List.append_assoc]
    rw [hsplit]
    exact decode_eq_some.mpr
      (.inr ⟨data, _, chunks, readChunk_encodeChunk data _, hdata, ih hchunks, rfl⟩)

end NcsExamples.ChunkedText
