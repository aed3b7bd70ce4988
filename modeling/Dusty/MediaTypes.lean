import Dusty.Http
import Mathlib.Data.List.TakeDrop

/-! # Recognizing media types

`fromContentType` copies what stands in front of the first `;` into a buffer of 33 bytes and looks it
up.  The buffer is never left (`recognize_run`), and a value is recognized unless a blank follows its
media type (`recognize_iff`). -/

namespace Dusty

open Act

/-! ### The buffer -/

/-- `main_buffer` and `main_length`. -/
structure MainBuffer where
  bytes : Bytes
  mainLength : ℕ
  size : bytes.length = 33

namespace MainBuffer

/-- The buffer in the beginning.  What is in it is not known. -/
def fresh (memory : Fin 33 → UInt8) : MainBuffer where
  bytes := List.ofFn memory
  mainLength := 0
  size := List.length_ofFn

/-- Write a byte behind the text.  An index out of bounds ends the process. -/
def store (b : UInt8) : Act MainBuffer Unit := fun self =>
  if self.mainLength < 33 then
    .ok () { bytes := self.bytes.set self.mainLength b
             mainLength := self.mainLength + 1
             size := List.length_set.trans self.size }
  else .error (.panic .assertion) self

/-- `main_buffer[0..main_length]`. -/
def main : Act MainBuffer Bytes := fun self =>
  if self.mainLength ≤ 33 then .ok (self.bytes.take self.mainLength) self
  else .error (.panic .assertion) self

/-- The loop: whether the text fits. -/
def copyMain : Bytes → Act MainBuffer Bool
  | [] => pure true
  | b :: rest =>
      if b = 59 then pure true
      else do
        let self ← get
        if 33 ≤ self.mainLength then pure false
        else do
          store (toLower b)
          copyMain rest

end MainBuffer

/-- `std.hash.Fnv1a_32.hash`. -/
def fnv1a32 (s : Bytes) : UInt32 := s.foldl (fun h b => (h ^^^ b.toUInt32) * 0x01000193) 0x811C9DC5

namespace ContentType

/-- The comparisons, in their order. -/
def lookup (main : Bytes) : ContentType :=
  ((table.find? fun row => fnv1a32 main == fnv1a32 (ascii row.1) && main == ascii row.1).map
    Prod.snd).getD .unknown

/-- `fromContentType`, with its buffer. -/
def recognize (value : Bytes) : Act MainBuffer ContentType :=
  if value.length = 0 then pure .unknown
  else do
    let fits ← MainBuffer.copyMain value
    if !fits then pure .unknown
    else do
      let self ← get
      if self.mainLength < 8 then pure .unknown
      else do
        let main ← MainBuffer.main
        pure (lookup main)

/-! ### What the buffer holds -/

/-- What stands in front of the first `;`. -/
def mainPart (value : Bytes) : Bytes := value.takeWhile (· ≠ 59)

theorem mainPart_append {main rest : Bytes} (h : 59 ∉ main) (hrest : rest = [] ∨ rest.head? = some 59) :
    mainPart (main ++ rest) = main := by
  unfold mainPart
  have hall : ∀ b ∈ main, decide (b ≠ 59) = true := fun b hb => decide_eq_true fun heq => h (heq ▸ hb)
  rw [List.takeWhile_append_of_pos hall]
  rcases hrest with rfl | hhead
  · rw [List.takeWhile_nil, List.append_nil]
  · cases rest with
    | nil => cases hhead
    | cons b rest =>
        rw [List.head?_cons, Option.some.injEq] at hhead
        rw [hhead, List.takeWhile_cons_of_neg (by decide), List.append_nil]

theorem mainPart_semicolon (rest : Bytes) : mainPart (59 :: rest) = [] :=
  List.takeWhile_cons_of_neg (by decide)

theorem mainPart_cons {b : UInt8} (h : b ≠ 59) (rest : Bytes) : mainPart (b :: rest) = b :: mainPart rest :=
  List.takeWhile_cons_of_pos (p := fun b => decide (b ≠ 59)) (decide_eq_true h)

theorem mainType_eq (value : Bytes) (room : ℕ) : mainType room value =
    if (mainPart value).length ≤ room then some ((mainPart value).map toLower) else none := by
  induction value generalizing room with
  | nil => cases room <;> rfl
  | cons b rest ih =>
      unfold mainType
      by_cases hb : b = 59
      · rw [if_pos hb, hb, mainPart_semicolon]
        exact (if_pos (Nat.zero_le _)).symm
      · rw [if_neg hb, mainPart_cons hb, List.length_cons]
        cases room with
        | zero => exact (if_neg (Nat.not_succ_le_zero _)).symm
        | succ room =>
            simp only
            rw [ih room]
            by_cases hle : (mainPart rest).length ≤ room
            · rw [if_pos hle, if_pos (Nat.succ_le_succ hle)]
              rfl
            · rw [if_neg hle, if_neg fun h => hle (Nat.le_of_succ_le_succ h)]
              rfl

/-- **One more byte.** -/
theorem store_run (b : UInt8) {self : MainBuffer} (h : self.mainLength < 33) :
    ∃ self', MainBuffer.store b self = .ok () self' ∧ self'.mainLength = self.mainLength + 1 ∧
      self'.bytes.take self'.mainLength = self.bytes.take self.mainLength ++ [b] := by
  refine ⟨_, if_pos h, rfl, ?_⟩
  show (self.bytes.set self.mainLength b).take (self.mainLength + 1) = _
  have hlt : self.mainLength < (self.bytes.set self.mainLength b).length := by
    rw [List.length_set, self.size]
    exact h
  rw [List.take_succ_eq_append_getElem hlt, List.getElem_set_self, List.take_set_of_le (Nat.le_refl _)]

/-- The action says whether the text fits, and puts it behind what is there if so. -/
def Copies (text : Bytes) (x : Act MainBuffer Bool) (self : MainBuffer) : Prop :=
  ∃ self', x self = .ok (decide (self.mainLength + text.length ≤ 33)) self' ∧
    (self.mainLength + text.length ≤ 33 →
      self'.mainLength = self.mainLength + text.length ∧
      self'.bytes.take self'.mainLength = self.bytes.take self.mainLength ++ text)

theorem copies_nothing {self : MainBuffer} (h : self.mainLength ≤ 33) : Copies [] (pure true) self :=
  ⟨self, congrArg (EStateM.Result.ok · self) (decide_eq_true h).symm, fun _ => ⟨rfl, (List.append_nil _).symm⟩⟩

/-- **The loop copies the text if it fits.** -/
theorem copyMain_run (value : Bytes) {self : MainBuffer} (hle : self.mainLength ≤ 33) :
    Copies ((mainPart value).map toLower) (MainBuffer.copyMain value) self := by
  induction value generalizing self with
  | nil => exact copies_nothing hle
  | cons b rest ih =>
      unfold MainBuffer.copyMain
      by_cases hb : b = 59
      · rw [if_pos hb, hb, mainPart_semicolon]
        exact copies_nothing hle
      · rw [if_neg hb, mainPart_cons hb]
        unfold Copies
        rw [bind_ok (get_run self), List.map_cons]
        by_cases hfull : 33 ≤ self.mainLength
        · have hnot : ¬self.mainLength + (toLower b :: (mainPart rest).map toLower).length ≤ 33 := by
            rw [List.length_cons]
            omega
          rw [if_pos hfull, decide_eq_false hnot]
          exact ⟨self, rfl, fun h => absurd h hnot⟩
        · obtain ⟨self₁, hstore, hlen₁, htext₁⟩ := store_run (toLower b) (Nat.lt_of_not_le hfull)
          obtain ⟨self', hrun, hcopied⟩ := ih (hlen₁.trans_le (Nat.lt_of_not_le hfull))
          have hadd : self.mainLength + (toLower b :: (mainPart rest).map toLower).length =
              self₁.mainLength + ((mainPart rest).map toLower).length := by
            rw [List.length_cons, hlen₁]
            omega
          rw [if_neg hfull, bind_ok hstore, hadd]
          refine ⟨self', hrun, fun hfits => ?_⟩
          obtain ⟨hlen, htext⟩ := hcopied hfits
          refine ⟨hlen, ?_⟩
          rw [htext, htext₁, List.append_assoc]
          rfl

/-- The hash that is compared first only saves comparisons. -/
theorem lookup_eq (main : Bytes) :
    lookup main = ((table.find? fun row => ascii row.1 == main).map Prod.snd).getD .unknown := by
  unfold lookup
  congr 3
  funext row
  by_cases h : main = ascii row.1
  · subst h
    rw [beq_self_eq_true, beq_self_eq_true]
    rfl
  · rw [beq_false_of_ne h, beq_false_of_ne (Ne.symm h), Bool.and_false]

/-- **`fromContentType` stays in its buffer.** -/
theorem recognize_run (memory : Fin 33 → UInt8) (value : Bytes) :
    ∃ self, recognize value (MainBuffer.fresh memory) = .ok (fromContentType value) self := by
  unfold recognize fromContentType
  rw [mainType_eq]
  by_cases hempty : value.length = 0
  · rw [if_pos hempty, List.length_eq_zero_iff.mp hempty]
    exact ⟨_, rfl⟩
  · have hcopy : Copies _ _ (MainBuffer.fresh memory) := copyMain_run value (Nat.zero_le 33)
    obtain ⟨self, hrun, hcopied⟩ := hcopy
    have hzero : (MainBuffer.fresh memory).mainLength = 0 := rfl
    rw [hzero, Nat.zero_add, List.length_map] at hrun hcopied
    rw [if_neg hempty, bind_ok hrun]
    by_cases hfits : (mainPart value).length ≤ 33
    · obtain ⟨hlen, htext⟩ := hcopied hfits
      rw [decide_eq_true hfits, if_pos hfits]
      simp only [Bool.not_true, Bool.false_eq_true, if_false]
      rw [bind_ok (get_run self), hlen, List.length_map]
      by_cases hshort : (mainPart value).length < 8
      · rw [if_pos hshort, if_pos hshort]
        exact ⟨self, rfl⟩
      · rw [if_neg hshort, if_neg hshort]
        have hmain : MainBuffer.main self = .ok ((mainPart value).map toLower) self := by
          unfold MainBuffer.main
          rw [if_pos (hlen ▸ hfits), htext]
          rfl
        rw [bind_ok hmain, lookup_eq]
        exact ⟨self, rfl⟩
    · rw [decide_eq_false hfits, if_neg hfits]
      exact ⟨self, rfl⟩

theorem fromContentType_eq (value : Bytes) :
    fromContentType value = lookup ((mainPart value).map toLower) := by
  have hrows : ∀ row ∈ table, 8 ≤ (ascii row.1).length ∧ (ascii row.1).length ≤ 33 := by decide
  have hout : ∀ main : Bytes, ¬(8 ≤ main.length ∧ main.length ≤ 33) → lookup main = .unknown := by
    intro main hlen
    rw [lookup_eq, List.find?_eq_none.mpr]
    · rfl
    · -- the texts have 8 to 33 bytes
      intro row hrow heq
      rw [← beq_iff_eq.mp heq] at hlen
      exact hlen (hrows row hrow)
  unfold fromContentType
  rw [mainType_eq]
  by_cases hfits : (mainPart value).length ≤ 33
  · rw [if_pos hfits]
    simp only
    by_cases hshort : ((mainPart value).map toLower).length < 8
    · rw [if_pos hshort, hout _ fun h => Nat.not_lt.mpr h.1 hshort]
    · rw [if_neg hshort, lookup_eq]
  · rw [if_neg hfits, hout]
    rw [List.length_map]
    exact fun h => hfits h.2

/-! ### What is recognized -/

/-- The value is a text of the table in any case, blanks, and nothing more or parameters. -/
def Written (value : Bytes) (row : String × ContentType) (blanks : Bytes) : Prop :=
  ∃ name rest, value = name ++ blanks ++ rest ∧ name.map toLower = ascii row.1 ∧
    (∀ b ∈ blanks, b = 32 ∨ b = 9) ∧ (rest = [] ∨ rest.head? = some 59)

/-- What the value is to be recognized as. -/
def Names (value : Bytes) (type : ContentType) : Prop :=
  ∃ row ∈ table, row.2 = type ∧ ∃ blanks, Written value row blanks

/-- A blank follows the media type. -/
def Spaced (value : Bytes) : Prop := ∃ row ∈ table, ∃ blanks, blanks ≠ [] ∧ Written value row blanks

theorem mem_map_toLower {s : Bytes} (h : (59 : UInt8) ∈ s) : 59 ∈ s.map toLower :=
  List.mem_map.mpr ⟨59, h, rfl⟩

theorem Written.mainPart {value : Bytes} {row : String × ContentType} {blanks : Bytes} (hrow : row ∈ table)
    (h : Written value row blanks) : (mainPart value).map toLower = ascii row.1 ++ blanks := by
  have hrows : ∀ row ∈ table, (59 : UInt8) ∉ ascii row.1 := by decide
  obtain ⟨name, rest, rfl, hname, hblanks, hrest⟩ := h
  have hno : (59 : UInt8) ∉ name ++ blanks := by
    intro hmem
    rcases List.mem_append.mp hmem with hmem | hmem
    · have := mem_map_toLower hmem
      rw [hname] at this
      exact hrows row hrow this
    · rcases hblanks 59 hmem with h | h <;> exact absurd h (by decide)
  have hlower : blanks.map toLower = blanks := by
    refine (List.map_congr_left fun b hb => ?_).trans (List.map_id _)
    rcases hblanks b hb with rfl | rfl <;> rfl
  rw [mainPart_append hno hrest, List.map_append, hname, hlower]

theorem lookup_row {row : String × ContentType} (h : row ∈ table) : lookup (ascii row.1) = row.2 := by
  have hrows : ∀ row ∈ table, ((table.find? fun other => ascii other.1 == ascii row.1).map
      Prod.snd).getD .unknown = row.2 := by decide
  rw [lookup_eq]
  exact hrows row h

theorem lookup_spec (main : Bytes) :
    (∃ row ∈ table, ascii row.1 = main ∧ row.2 = lookup main) ∨
      (∀ row ∈ table, ascii row.1 ≠ main) ∧ lookup main = .unknown := by
  rw [lookup_eq]
  cases hfind : table.find? fun row => ascii row.1 == main with
  | some row =>
      have hmain := List.find?_some hfind
      exact .inl ⟨row, List.mem_of_find?_eq_some hfind, beq_iff_eq.mp hmain, rfl⟩
  | none =>
      refine .inr ⟨fun row hrow heq => List.find?_eq_none.mp hfind row hrow (beq_iff_eq.mpr heq), rfl⟩

theorem named_of_main {value : Bytes} {row : String × ContentType} (h : row ∈ table)
    (hmain : ascii row.1 = (mainPart value).map toLower) : Names value row.2 := by
  refine ⟨row, h, rfl, [], ContentType.mainPart value, value.dropWhile (· ≠ 59), ?_, hmain.symm, by simp, ?_⟩
  · rw [List.append_nil]
    exact List.takeWhile_append_dropWhile.symm
  · cases hrest : value.dropWhile (· ≠ 59) with
    | nil => exact .inl rfl
    | cons b rest =>
        right
        have hb := List.head?_dropWhile_not (fun b => decide (b ≠ 59)) value
        rw [hrest] at hb
        rw [List.head?_cons, Option.some.injEq]
        exact not_not.mp (of_decide_eq_false hb)

/-- **Which media types are recognized.**  `fromContentType` never leaves its buffer, and a value is
recognized as it should be, or not at all if it is none, exactly if no blank follows its media type. -/
theorem recognize_iff (memory : Fin 33 → UInt8) (value : Bytes) :
    ∃ type self, recognize value (MainBuffer.fresh memory) = .ok type self ∧
      (((∀ named, Names value named → type = named) ∧
        ((∀ named, ¬Names value named) → type = .unknown)) ↔ ¬Spaced value) := by
  obtain ⟨self, hrun⟩ := recognize_run memory value
  refine ⟨_, self, hrun, ?_⟩
  rw [fromContentType_eq]
  have hends : ∀ row ∈ table, (ascii row.1).getLast? ≠ some 32 ∧ (ascii row.1).getLast? ≠ some 9 := by
    decide
  have hknown : ∀ row ∈ table, row.2 ≠ .unknown := by decide
  constructor
  · rintro ⟨hnamed, -⟩ ⟨row, hrow, blanks, hne, hwritten⟩
    have htype := hnamed row.2 ⟨row, hrow, rfl, blanks, hwritten⟩
    rw [hwritten.mainPart hrow] at htype
    rcases lookup_spec (ascii row.1 ++ blanks) with ⟨other, hother, heq, -⟩ | ⟨-, hunknown⟩
    · -- no text of the table ends with a blank
      obtain ⟨b, hb⟩ := Option.ne_none_iff_exists'.mp (List.getLast?_eq_none_iff.not.mpr hne)
      have hlast : (ascii other.1).getLast? = some b := by
        rw [heq, List.getLast?_append, hb]
        rfl
      obtain ⟨hspace, htab⟩ := hends other hother
      obtain ⟨name, rest, -, -, hblanks, -⟩ := hwritten
      rcases hblanks b (List.mem_of_mem_getLast? hb) with rfl | rfl
      · exact hspace hlast
      · exact htab hlast
    · exact hknown row hrow (htype.symm.trans hunknown)
  · intro hspaced
    constructor
    · rintro named ⟨row, hrow, rfl, blanks, hwritten⟩
      have hnil : blanks = [] := by
        by_contra hne
        exact hspaced ⟨row, hrow, blanks, hne, hwritten⟩
      rw [hwritten.mainPart hrow, hnil, List.append_nil, lookup_row hrow]
    · intro hnone
      rcases lookup_spec ((mainPart value).map toLower) with ⟨row, hrow, hmain, -⟩ | ⟨-, hunknown⟩
      · exact absurd (named_of_main hrow hmain) (hnone row.2)
      · exact hunknown

/-- A form whose type is followed by a blank is not taken for one. -/
theorem recognize_spaced :
    ∃ self, Names (ascii "multipart/form-data ; boundary=b") .multipartForm ∧
      recognize (ascii "multipart/form-data ; boundary=b") (MainBuffer.fresh fun _ => 0) =
        .ok .unknown self := by
  obtain ⟨self, hrun⟩ := recognize_run (fun _ => 0) (ascii "multipart/form-data ; boundary=b")
  have hunknown : fromContentType (ascii "multipart/form-data ; boundary=b") = .unknown := by decide
  rw [hunknown] at hrun
  refine ⟨self, ⟨("multipart/form-data", .multipartForm), by decide, rfl, [32], ?_⟩, hrun⟩
  exact ⟨ascii "multipart/form-data", ascii "; boundary=b", by decide, by decide, by decide, .inr (by decide)⟩

end ContentType
end Dusty
