import Dusty.Numerals

/-! # Lines, header blocks and chunked bodies

How a recipient cuts a message: at the first CRLF (`cutLine`), at the first empty line
(`cutHead`), and into the chunks of a chunked body (`decodeChunked`).  The readers are strict:
a chunk has a plain hexadecimal size, and the last one is followed by an empty trailer.  Each
comes with the theorem that it undoes the corresponding writer, whatever follows. -/

namespace Dusty

/-! ### Lines -/

/-- Cut at the first CRLF: the line and what follows it. -/
def cutLine : Bytes → Option (Bytes × Bytes)
  | 13 :: 10 :: rest => some ([], rest)
  | b :: rest => (cutLine rest).map fun cut => (b :: cut.1, cut.2)
  | [] => none

theorem cutLine_append {line : Bytes} (h : ∀ b ∈ line, b ≠ 13) (rest : Bytes) :
    cutLine (line ++ crlf ++ rest) = some (line, rest) := by
  induction line with
  | nil => rfl
  | cons b line ih =>
      have hb : b ≠ 13 := h b (by simp)
      have ih := ih fun c hc => h c (by simp [hc])
      rw [List.cons_append, List.cons_append, cutLine]
      · rw [ih]
        rfl
      · intro rest' hb' _
        exact hb hb'

/-! ### Header blocks -/

/-- The lines up to the first empty one, and what follows it. -/
def cutHeadAux : ℕ → Bytes → Option (List Bytes × Bytes)
  | 0, _ => none
  | fuel + 1, text =>
      match cutLine text with
      | none => none
      | some ([], rest) => some ([], rest)
      | some (line, rest) => (cutHeadAux fuel rest).map fun cut => (line :: cut.1, cut.2)

/-- The header block a message starts with. -/
def cutHead (text : Bytes) : Option (List Bytes × Bytes) := cutHeadAux text.length text

/-- A header block of the given lines. -/
def headBlock (lines : List Bytes) : Bytes := (lines.flatMap fun line => line ++ crlf) ++ crlf

/-- A line of a header block: not empty, no carriage return. -/
def IsLine (line : Bytes) : Prop := line ≠ [] ∧ ∀ b ∈ line, b ≠ 13

theorem headBlock_cons (line : Bytes) (lines : List Bytes) :
    headBlock (line :: lines) = line ++ crlf ++ headBlock lines := by
  simp [headBlock]

theorem length_headBlock (lines : List Bytes) : lines.length < (headBlock lines).length := by
  induction lines with
  | nil => decide
  | cons line lines ih =>
      have hcrlf : crlf.length = 2 := rfl
      rw [headBlock_cons]
      simp only [List.length_append, List.length_cons]
      omega

theorem cutHeadAux_headBlock {lines : List Bytes} (h : ∀ line ∈ lines, IsLine line) (rest : Bytes)
    {fuel : ℕ} (hfuel : lines.length < fuel) :
    cutHeadAux fuel (headBlock lines ++ rest) = some (lines, rest) := by
  induction lines generalizing fuel with
  | nil =>
      obtain ⟨fuel, rfl⟩ := Nat.exists_eq_add_one_of_ne_zero (Nat.ne_of_gt hfuel)
      rfl
  | cons line lines ih =>
      obtain ⟨fuel, rfl⟩ := Nat.exists_eq_add_one_of_ne_zero (Nat.ne_zero_of_lt hfuel)
      obtain ⟨hne, hcr⟩ := h line (by simp)
      have ih := ih (fun l hl => h l (by simp [hl])) (Nat.lt_of_succ_lt_succ hfuel)
      rw [headBlock_cons, List.append_assoc, cutHeadAux, cutLine_append hcr]
      cases line with
      | nil => exact absurd rfl hne
      | cons b line =>
          simp only [ih]
          rfl

/-- **A header block is cut where it ends**, whatever follows. -/
theorem cutHead_headBlock {lines : List Bytes} (h : ∀ line ∈ lines, IsLine line) (rest : Bytes) :
    cutHead (headBlock lines ++ rest) = some (lines, rest) := by
  refine cutHeadAux_headBlock h rest ?_
  have := length_headBlock lines
  rw [List.length_append]
  omega

/-! ### Chunked bodies -/

/-- The text of one chunk. -/
def encodeChunk (data : Bytes) : Bytes := fmtNat 16 data.length ++ crlf ++ data ++ crlf

/-- The last chunk and the empty trailer. -/
def lastChunk : Bytes := [48, 13, 10, 13, 10]

/-- Read chunks up to and including the last one. -/
def decodeChunkedAux : ℕ → Bytes → Option (Bytes × Bytes)
  | 0, _ => none
  | fuel + 1, text =>
      match cutLine text with
      | none => none
      | some (line, rest) =>
          match readNat 16 line with
          | none => none
          | some 0 =>
              match rest with
              | 13 :: 10 :: rest => some ([], rest)
              | _ => none
          | some size =>
              if size ≤ rest.length ∧ (rest.drop size).take 2 = crlf then
                (decodeChunkedAux fuel (rest.drop (size + 2))).map fun cut =>
                  (rest.take size ++ cut.1, cut.2)
              else none

/-- The content of a chunked body, and what follows the body. -/
def decodeChunked (text : Bytes) : Option (Bytes × Bytes) := decodeChunkedAux text.length text

theorem cutLine_fmtNat (n : ℕ) (rest : Bytes) :
    cutLine (fmtNat 16 n ++ crlf ++ rest) = some (fmtNat 16 n, rest) := by
  refine cutLine_append (fun b hb => ?_) rest
  have h48 := fmtNat_bytes (by norm_num) le_rfl b hb
  rintro rfl
  exact absurd h48 (by decide)

theorem decodeChunkedAux_encodeChunk {data : Bytes} (h : data ≠ []) (fuel : ℕ) (rest : Bytes) :
    decodeChunkedAux (fuel + 1) (encodeChunk data ++ rest) =
      (decodeChunkedAux fuel rest).map fun cut => (data ++ cut.1, cut.2) := by
  have hsplit : encodeChunk data ++ rest =
      fmtNat 16 data.length ++ crlf ++ (data ++ (crlf ++ rest)) := by
    simp [encodeChunk]
  have hread : readNat 16 (fmtNat 16 data.length) = some data.length :=
    readNat_fmtNat (by norm_num) le_rfl _
  have hdrop : (data ++ (crlf ++ rest)).drop data.length = crlf ++ rest := List.drop_left
  have hdrop2 : (data ++ (crlf ++ rest)).drop (data.length + 2) = rest := by
    rw [← List.drop_drop, hdrop]
    rfl
  have hfits : data.length ≤ (data ++ (crlf ++ rest)).length ∧
      ((data ++ (crlf ++ rest)).drop data.length).take 2 = crlf := by
    rw [hdrop, List.length_append]
    exact ⟨by omega, rfl⟩
  rw [hsplit, decodeChunkedAux, cutLine_fmtNat]
  simp only [hread]
  split
  · case h_1 hnone => simp at hnone
  · case h_2 hzero =>
      have hlen : data.length = 0 := Option.some.inj hzero
      exact absurd (List.length_eq_zero_iff.mp hlen) h
  · case h_3 size _ hsize =>
      obtain rfl : data.length = size := by simpa using hsize
      rw [if_pos hfits, hdrop2, List.take_left]

theorem length_encodeChunks (chunks : List Bytes) :
    chunks.length ≤ (chunks.flatMap encodeChunk).length := by
  induction chunks with
  | nil => simp
  | cons c cs ih =>
      have hcrlf : crlf.length = 2 := rfl
      simp only [List.flatMap_cons, List.length_append, List.length_cons, encodeChunk]
      omega

theorem decodeChunkedAux_encodeChunks {chunks : List Bytes} (h : ∀ c ∈ chunks, c ≠ [])
    (rest : Bytes) {fuel : ℕ} (hfuel : chunks.length < fuel) :
    decodeChunkedAux fuel (chunks.flatMap encodeChunk ++ (lastChunk ++ rest)) =
      some (chunks.flatten, rest) := by
  induction chunks generalizing fuel with
  | nil =>
      obtain ⟨fuel, rfl⟩ := Nat.exists_eq_add_one_of_ne_zero (Nat.ne_of_gt hfuel)
      rfl
  | cons c cs ih =>
      obtain ⟨fuel, rfl⟩ := Nat.exists_eq_add_one_of_ne_zero (Nat.ne_zero_of_lt hfuel)
      have ih := ih (fun d hd => h d (by simp [hd])) (Nat.lt_of_succ_lt_succ hfuel)
      rw [List.flatMap_cons, List.append_assoc, decodeChunkedAux_encodeChunk (h c (by simp)), ih]
      rfl

/-- **A chunked body decodes to what was put in**, and ends where its last chunk does. -/
theorem decodeChunked_encodeChunks {chunks : List Bytes} (h : ∀ c ∈ chunks, c ≠ [])
    (rest : Bytes) :
    decodeChunked (chunks.flatMap encodeChunk ++ lastChunk ++ rest) =
      some (chunks.flatten, rest) := by
  unfold decodeChunked
  rw [List.append_assoc]
  refine decodeChunkedAux_encodeChunks h rest ?_
  have := length_encodeChunks chunks
  have hlast : lastChunk.length = 5 := rfl
  simp only [List.length_append]
  omega

end Dusty
