import Dusty.MultipartForms
import Dusty.QuotedAttributes

/-! # Escapes in a form

When a body that is parsed as a form is left as it was: exactly if no quoted value that is read has a
backslash in front of a character that can be escaped.  Each level of the parser has its own predicate,
and a lemma that says so. -/

namespace Dusty
namespace MultipartForm

open Act

/-! ### A quoted value -/

/-- In front of the closing quote, there is a backslash and a character that it escapes. -/
def Escapes (quoted : Bytes) : Prop :=
  ∃ pre n rest, quoted = pre ++ 92 :: n :: rest ∧ isEscapable n = true ∧ 34 ∉ pre

theorem escapes_cons {b : UInt8} {quoted : Bytes} (hb : b ≠ 34) :
    Escapes (b :: quoted) ↔
      (b = 92 ∧ ∃ n rest, quoted = n :: rest ∧ isEscapable n = true) ∨ Escapes quoted := by
  constructor
  · rintro ⟨pre, n, rest, hquoted, hn, hpre⟩
    cases pre with
    | nil =>
        obtain ⟨rfl, hrest⟩ := List.cons.inj hquoted
        exact .inl ⟨rfl, n, rest, hrest, hn⟩
    | cons c pre =>
        obtain ⟨rfl, hrest⟩ := List.cons.inj hquoted
        exact .inr ⟨pre, n, rest, hrest, hn, fun hmem => hpre (List.mem_cons_of_mem _ hmem)⟩
  · rintro (⟨rfl, n, rest, rfl, hn⟩ | ⟨pre, n, rest, rfl, hn, hpre⟩)
    · exact ⟨[], n, rest, rfl, hn, List.not_mem_nil⟩
    · exact ⟨b :: pre, n, rest, rfl, hn, fun hmem => (List.mem_cons.mp hmem).elim (hb ·.symm) hpre⟩

theorem not_escapes_close (rest : Bytes) : ¬Escapes (34 :: rest) := by
  rintro ⟨pre, n, rest', hquoted, hn, hpre⟩
  cases pre with
  | nil => cases (List.cons.inj hquoted).1
  | cons c pre =>
      obtain ⟨rfl, -⟩ := List.cons.inj hquoted
      exact hpre List.mem_cons_self

/-- What is read of a quoted text is what it begins with, exactly if nothing is escaped in it. -/
theorem unquote_prefix_iff (text : Bytes) : (unquote text).1 <+: text ↔ ¬Escapes text := by
  induction text using unquote_induction with
  | nil =>
      refine iff_of_true (List.nil_prefix) ?_
      rintro ⟨pre, n, rest, hnil, -⟩
      exact List.append_ne_nil_of_right_ne_nil pre (List.cons_ne_nil _ _) hnil.symm
  | trailing =>
      refine iff_of_true List.nil_prefix ?_
      rw [escapes_cons (by decide)]
      rintro (⟨-, n, rest, hnil, -⟩ | ⟨pre, n, rest, hnil, -⟩)
      · cases hnil
      · exact List.append_ne_nil_of_right_ne_nil pre (List.cons_ne_nil _ _) hnil.symm
  | escape n rest h ih =>
      have hne : n ≠ 92 := by
        rintro rfl
        rw [not_escapable_backslash] at h
        cases h
      rw [unquote_escape h, List.cons_prefix_cons]
      refine iff_of_false (fun hprefix => hne hprefix.1) fun hno => hno ?_
      exact ⟨[], n, rest, rfl, h, List.not_mem_nil⟩
  | backslash n rest h ih =>
      rw [unquote_backslash h, List.cons_prefix_cons, and_iff_right rfl, ih,
        @escapes_cons 92 (n :: rest) (by decide)]
      refine not_congr (or_iff_right ?_).symm
      rintro ⟨-, n', rest', hcons, hn⟩
      obtain ⟨rfl, -⟩ := List.cons.inj hcons
      rw [h] at hn
      cases hn
  | close rest => exact iff_of_true (by rw [unquote_close]; exact List.nil_prefix) (not_escapes_close rest)
  | plain b rest hbackslash hquote ih =>
      rw [unquote_plain hbackslash hquote, List.cons_prefix_cons, and_iff_right rfl, ih,
        escapes_cons hquote]
      exact not_congr (or_iff_right fun h => hbackslash h.1).symm

/-! ### Attributes -/

/-- The next attribute is quoted, and something is escaped in its value. -/
def EscapedValue (text : Bytes) : Prop :=
  ∃ quoted, text.dropWhile (· ≠ 61) = 61 :: 34 :: quoted ∧ Escapes quoted

/-- What the next attribute leaves of the text. -/
def nextLeft (text : Bytes) : Bytes :=
  match nextAttribute text with
  | .error left => left
  | .ok a => a.done ++ a.rest

theorem nextLeft_eq_iff (text : Bytes) : nextLeft text = text ↔ ¬EscapedValue text := by
  have hplain (h : ∀ quoted, text.dropWhile (· ≠ 61) ≠ 61 :: 34 :: quoted) : ¬EscapedValue text :=
    fun ⟨quoted, hquoted, _⟩ => h quoted hquoted
  unfold nextLeft
  rcases findIdx_eq text 61 with ⟨-, hnil⟩ | ⟨more, -, hmore, htext⟩
  · rw [nextAttribute, hnil]
    exact iff_of_true rfl (hplain fun quoted h => by rw [hnil] at h; cases h)
  · rw [nextAttribute, hmore]
    cases more with
    | nil => exact iff_of_true rfl (hplain fun quoted h => by rw [hmore] at h; cases h)
    | cons b more =>
        simp only
        generalize text.takeWhile (· ≠ 61) = key at htext ⊢
        by_cases hb : b = 34
        · subst hb
          rw [if_pos rfl]
          have hescaped : EscapedValue text ↔ Escapes more := by
            unfold EscapedValue
            rw [hmore]
            constructor
            · rintro ⟨quoted, hquoted, h⟩
              cases hquoted
              exact h
            · exact fun h => ⟨more, rfl, h⟩
          have hwhole : text = key ++ [61, 34] ++ more := by
            rw [htext]
            simp only [List.append_assoc, List.cons_append, List.nil_append]
          have hleft : key ++ [61, 34] ++ ((unquote more).1 ++ more.drop (unquote more).1.length) = text ↔
              ¬Escapes more := by
            rw [hwhole, List.append_cancel_left_eq, ← unquote_prefix_iff, List.prefix_iff_eq_append]
          rw [hescaped, ← hleft]
          cases hquoted : quotedAttribute key more with
          | error left =>
              unfold quotedAttribute at hquoted
              split at hquoted
              · cases hquoted
                exact Iff.rfl
              · cases hquoted
          | ok a =>
              obtain ⟨rest, -, -, hlead, hvalue, hrest, hsplit, -⟩ := quotedAttribute_ok hquoted
              simp only
              rw [← hvalue, hsplit, Attribute.done, hlead, hrest]
              simp only [List.append_assoc]
        · rw [if_neg hb]
          refine iff_of_true ?_ (hplain fun quoted h => ?_)
          · simp only [Attribute.done, plainAttribute, List.append_nil]
            rw [List.append_assoc, List.takeWhile_append_dropWhile, htext, List.append_assoc,
              List.singleton_append]
          · rw [hmore] at h
            exact hb (List.cons.inj (List.cons.inj h).2).1

/-- Something is escaped in an attribute that is read. -/
inductive EscapedAttributes : Bytes → Prop
  | separator {b : UInt8} {rest : Bytes} (hb : isSeparator b = true) (h : EscapedAttributes rest) :
      EscapedAttributes (b :: rest)
  | here {b : UInt8} {rest : Bytes} (hb : isSeparator b = false) (h : EscapedValue (b :: rest)) :
      EscapedAttributes (b :: rest)
  | behind {b : UInt8} {rest : Bytes} {a : Attribute} (hb : isSeparator b = false)
      (ha : nextAttribute (b :: rest) = .ok a) (h : EscapedAttributes a.rest) :
      EscapedAttributes (b :: rest)

/-- A text is left as it was exactly if both its parts are. -/
theorem left_eq_iff {left rest rest' text : Bytes} (hsuffix : rest <:+ text)
    (hlength : rest'.length = rest.length) :
    left ++ rest' = text ↔ left ++ rest = text ∧ rest' = rest := by
  constructor
  · intro heq
    obtain rfl := suffix_eq ⟨left, heq⟩ hsuffix hlength
    exact ⟨heq, rfl⟩
  · rintro ⟨heq, rfl⟩
    exact heq

/-- The attributes are left as they were exactly if nothing is escaped in them. -/
theorem rewriteAttributes_eq_iff (text : Bytes) : rewriteAttributes text = text ↔ ¬EscapedAttributes text := by
  induction text using attributes_induction with
  | nil =>
      refine iff_of_true (by rw [rewriteAttributes]) fun h => ?_
      cases h
  | separator b rest hb ih =>
      rw [rewriteAttributes_separator hb, List.cons_eq_cons, and_iff_right rfl, ih]
      refine not_congr ⟨.separator hb, fun h => ?_⟩
      cases h with
      | separator _ h => exact h
      | here hno _ | behind hno _ _ =>
          rw [hb] at hno
          cases hno
  | broken b rest left hb hbroken =>
      have hleft := nextLeft_eq_iff (b :: rest)
      unfold nextLeft at hleft
      rw [hbroken] at hleft
      rw [rewriteAttributes_broken hb hbroken, hleft]
      refine not_congr ⟨.here hb, fun h => ?_⟩
      cases h with
      | separator hyes _ =>
          rw [hb] at hyes
          cases hyes
      | here _ h => exact h
      | behind _ ha _ =>
          rw [hbroken] at ha
          cases ha
  | found b rest a hb ha ih =>
      have hleft := nextLeft_eq_iff (b :: rest)
      unfold nextLeft at hleft
      rw [ha] at hleft
      rw [rewriteAttributes_found hb ha,
        left_eq_iff (nextAttribute_suffix ha) (length_rewriteAttributes a.rest), hleft, ih, ← not_or]
      refine not_congr ⟨fun h => h.elim (.here hb) (.behind hb ha), fun h => ?_⟩
      cases h with
      | separator hyes _ =>
          rw [hb] at hyes
          cases hyes
      | here _ h => exact .inl h
      | behind _ ha' h =>
          rw [ha] at ha'
          cases ha'
          exact .inr h

/-! ### Header lines -/

/-- A line is about the name of the part, and something is escaped in its attributes. -/
structure EscapedLine (line : Bytes) : Prop where
  disposition : startsWithIgnoreCase line (ascii "content-disposition:") = true
  form : startsWithIgnoreCase (trim (line.drop 20)) (ascii "form-data;") = true
  attributes : EscapedAttributes (trim ((trim (line.drop 20)).drop 10).dropLast)

/-- Without its last byte, the end of a text is one of the text without it. -/
theorem dropLast_suffix {rest text : Bytes} (h : rest <:+ text) : rest.dropLast <:+ text.dropLast := by
  obtain ⟨front, rfl⟩ := h
  by_cases hrest : rest = []
  · rw [hrest]
    exact List.nil_suffix
  · rw [List.dropLast_append_of_ne_nil hrest]
    exact List.suffix_append front _

/-- A line is left as it was exactly if nothing is escaped in it. -/
theorem rewriteLine_eq_iff {line : Bytes} (hlast : line.getLast? = some 13) :
    rewriteLine line = line ↔ ¬EscapedLine line := by
  cases hdisposition : startsWithIgnoreCase line (ascii "content-disposition:") with
  | false =>
      refine iff_of_true ?_ fun h => ?_
      · unfold rewriteLine
        rw [hdisposition]
        rfl
      · have hyes := h.disposition
        rw [hdisposition] at hyes
        cases hyes
  | true =>
      cases hform : startsWithIgnoreCase (trim (line.drop 20)) (ascii "form-data;") with
      | false =>
          refine iff_of_true ?_ fun h => ?_
          · unfold rewriteLine
            rw [hdisposition, hform]
            rfl
          · have hyes := h.form
            rw [hform] at hyes
            cases hyes
      | true =>
          generalize hfields : trim ((trim (line.drop 20)).drop 10).dropLast = fields
          have hescaped : EscapedLine line ↔ EscapedAttributes fields := by
            rw [← hfields]
            exact ⟨fun h => h.attributes, fun h => ⟨hdisposition, hform, h⟩⟩
          have hvalue : (trim (line.drop 20)).drop 10 <:+ line :=
            (List.drop_suffix _ _).trans ((List.dropWhile_suffix _).trans (List.drop_suffix _ _))
          obtain ⟨skipped, hskipped⟩ : fields <:+ line.dropLast := by
            rw [← hfields]
            exact (List.dropWhile_suffix _).trans (dropLast_suffix hvalue)
          have hline : line = skipped ++ fields ++ [13] := by
            rw [hskipped]
            exact (List.dropLast_append_getLast? 13 hlast).symm
          rw [hline] at hdisposition hform hfields
          rw [hescaped, ← rewriteAttributes_eq_iff, hline, rewriteLine_eq hdisposition hform hfields,
            List.append_cancel_right_eq, List.append_cancel_left_eq]

/-- The text begins with a line, and something is escaped in it. -/
def EscapedFirst (text : Bytes) : Prop :=
  ∃ line rest, text = line ++ 10 :: rest ∧ 10 ∉ line ∧ line.getLast? = some 13 ∧ EscapedLine line

/-- What the next line leaves of the text. -/
def lineLeft (text : Bytes) : Bytes :=
  match nextLine text with
  | .broken left => left
  | .last _ => text
  | .line _ left rest => left ++ rest

theorem lineLeft_eq_iff (text : Bytes) : lineLeft text = text ↔ ¬EscapedFirst text := by
  unfold lineLeft
  rcases line_cases text with hno | ⟨line, rest, hline, rfl⟩
  · rw [nextLine_of_not_mem hno]
    refine iff_of_true rfl ?_
    rintro ⟨line, rest, rfl, -⟩
    exact hno (List.mem_append_right _ List.mem_cons_self)
  · have hescaped : EscapedFirst (line ++ 10 :: rest) ↔ line.getLast? = some 13 ∧ EscapedLine line := by
      constructor
      · rintro ⟨line', rest', htext, hline', h⟩
        have hcut := congrArg (List.takeWhile (· ≠ 10)) htext
        rw [(cut_line hline rest).1, (cut_line hline' rest').1] at hcut
        exact hcut ▸ h
      · exact fun h => ⟨line, rest, rfl, hline, h⟩
    rw [hescaped, nextLine_append hline]
    by_cases hlast : line.getLast? = some 13
    · have hsame := rewriteLine_eq_iff hlast
      rw [if_neg (not_not.mpr hlast), and_iff_right hlast, ← hsame]
      by_cases hone : line = [13]
      · subst hone
        rw [if_pos rfl]
        exact iff_of_true rfl rfl
      · rw [if_neg hone]
        cases readLine line with
        | none =>
            simp only
            rw [List.append_cancel_right_eq]
        | some said =>
            simp only
            rw [List.append_assoc, List.singleton_append, List.append_cancel_right_eq]
    · rw [if_pos hlast]
      exact iff_of_true rfl fun h => hlast h.1

/-- Something is escaped in a header line that is read. -/
inductive EscapedHeader : Bytes → Prop
  | here {text : Bytes} (h : EscapedFirst text) : EscapedHeader text
  | behind {text left rest : Bytes} {said : Option (Bytes × Option Bytes)}
      (hnext : nextLine text = .line said left rest) (h : EscapedHeader rest) : EscapedHeader text

/-- What is behind the next line is the end of the text. -/
theorem nextLine_suffix {text left rest : Bytes} {said : Option (Bytes × Option Bytes)}
    (h : nextLine text = .line said left rest) : rest <:+ text := by
  rcases line_cases text with hno | ⟨line, behind, hline, rfl⟩
  · rw [nextLine_of_not_mem hno] at h
    cases h
  · rw [nextLine_append hline] at h
    split at h
    · cases h
    · split at h
      · cases h
      · split at h
        · cases h
        · cases h
          exact ⟨line ++ [10], by rw [List.append_assoc, List.singleton_append]⟩

/-- The header is left as it was exactly if nothing is escaped in it. -/
theorem rewriteHeader_eq_iff (text : Bytes) : rewriteHeader text = text ↔ ¬EscapedHeader text := by
  induction text using header_induction with
  | broken text left hnext =>
      have hleft := lineLeft_eq_iff text
      unfold lineLeft at hleft
      rw [hnext] at hleft
      rw [rewriteHeader_broken hnext, hleft]
      refine not_congr ⟨.here, fun h => ?_⟩
      cases h with
      | here h => exact h
      | behind hline _ =>
          rw [hnext] at hline
          cases hline
  | last text rest hnext =>
      have hleft := lineLeft_eq_iff text
      unfold lineLeft at hleft
      rw [hnext] at hleft
      rw [rewriteHeader_last hnext, hleft]
      refine not_congr ⟨.here, fun h => ?_⟩
      cases h with
      | here h => exact h
      | behind hline _ =>
          rw [hnext] at hline
          cases hline
  | line text said left rest hnext ih =>
      have hleft := lineLeft_eq_iff text
      unfold lineLeft at hleft
      rw [hnext] at hleft
      rw [rewriteHeader_line hnext, left_eq_iff (nextLine_suffix hnext) (length_rewriteHeader rest), hleft, ih,
        ← not_or]
      refine not_congr ⟨fun h => h.elim .here (.behind hnext), fun h => ?_⟩
      cases h with
      | here h => exact .inl h
      | behind hline h =>
          rw [hnext] at hline
          cases hline
          exact .inr h

/-! ### Pieces -/

/-- Something is escaped in a part that is read. -/
inductive EscapedPieces (limit : ℕ) : List Bytes → MultipartMap → Prop
  | here {text : Bytes} {rest : List Bytes} {m : MultipartMap} (hroom : m.count < limit)
      (hcrlf : text.take 2 = [13, 10]) (h : EscapedHeader (text.drop 2)) :
      EscapedPieces limit (text :: rest) m
  | behind {text name left : Bytes} {entry : MultipartEntry} {rest : List Bytes} {m : MultipartMap}
      (hpiece : readPiece (decide (limit ≤ m.count)) text = .part name entry left)
      (h : EscapedPieces limit rest (m.insert name entry)) : EscapedPieces limit (text :: rest) m

/-- What a piece leaves of its text. -/
def pieceLeft (text : Bytes) : Piece → Bytes
  | .last => text
  | .broken _ left => left
  | .part _ _ left => left

theorem pieceLeft_eq_iff (full : Bool) (text : Bytes) :
    pieceLeft text (readPiece full text) = text ↔
      ¬(full = false ∧ text.take 2 = [13, 10] ∧ EscapedHeader (text.drop 2)) := by
  unfold readPiece
  by_cases hlast : text = ascii "--\r\n"
  · rw [if_pos hlast]
    refine iff_of_true rfl fun h => ?_
    rw [hlast] at h
    exact absurd h.2.1 (by decide)
  · rw [if_neg hlast]
    cases full with
    | true => exact iff_of_true rfl fun h => Bool.noConfusion h.1
    | false =>
        rw [if_neg Bool.false_ne_true, and_iff_right rfl]
        by_cases hcrlf : text.take 2 = [13, 10]
        · have hleft : [13, 10] ++ rewriteHeader (text.drop 2) = text ↔ ¬EscapedHeader (text.drop 2) := by
            have htext : [13, 10] ++ text.drop 2 = text := by rw [← hcrlf, List.take_append_drop]
            rw [← rewriteHeader_eq_iff]
            conv_lhs => rhs; rw [← htext]
            rw [List.append_cancel_left_eq]
          rw [if_neg (not_not.mpr hcrlf), and_iff_right hcrlf, ← hleft]
          cases readEntry (text.drop 2) <;> exact Iff.rfl
        · rw [if_pos hcrlf]
          exact iff_of_true rfl fun h => hcrlf h.1

/-- The pieces are left as they were exactly if nothing is escaped in them. -/
theorem rewritePieces_eq_iff {limit : ℕ} (pieces : List Bytes) (m : MultipartMap) :
    rewritePieces limit pieces m = pieces ↔ ¬EscapedPieces limit pieces m := by
  induction pieces generalizing m with
  | nil =>
      refine iff_of_true rfl fun h => ?_
      cases h
  | cons text rest ih =>
      have hleft := pieceLeft_eq_iff (decide (limit ≤ m.count)) text
      rw [decide_eq_false_iff_not, Nat.not_le] at hleft
      rw [rewritePieces]
      cases hpiece : readPiece (decide (limit ≤ m.count)) text with
      | last =>
          rw [hpiece] at hleft
          refine iff_of_true rfl fun h => ?_
          cases h with
          | here hroom hcrlf h => exact hleft.mp rfl ⟨hroom, hcrlf, h⟩
          | behind hpart _ =>
              rw [hpiece] at hpart
              cases hpart
      | broken e left =>
          rw [hpiece, pieceLeft] at hleft
          rw [List.cons_eq_cons, and_iff_left rfl, hleft]
          refine not_congr ⟨fun h => .here h.1 h.2.1 h.2.2, fun h => ?_⟩
          cases h with
          | here hroom hcrlf h => exact ⟨hroom, hcrlf, h⟩
          | behind hpart _ =>
              rw [hpiece] at hpart
              cases hpart
      | part name entry left =>
          rw [hpiece, pieceLeft] at hleft
          rw [List.cons_eq_cons, hleft, ih, ← not_or]
          refine not_congr ⟨fun h => h.elim (fun h => .here h.1 h.2.1 h.2.2) (.behind hpiece), fun h => ?_⟩
          cases h with
          | here hroom hcrlf h => exact .inl ⟨hroom, hcrlf, h⟩
          | behind hpart h =>
              rw [hpiece] at hpart
              cases hpart
              exact .inr h

/-- Something is escaped in a form. -/
def EscapedForm (limit : ℕ) (m : MultipartMap) : List Bytes → Prop
  | [] => False
  | first :: rest => first = [] ∧ EscapedPieces limit rest m

/-- The pieces of a body are left as they were exactly if nothing is escaped in the form. -/
theorem rewriteForm_eq_iff {limit : ℕ} (pieces : List Bytes) (m : MultipartMap) :
    rewriteForm limit pieces m = pieces ↔ ¬EscapedForm limit m pieces := by
  cases pieces with
  | nil => exact iff_of_true rfl id
  | cons first rest =>
      rw [rewriteForm, EscapedForm]
      by_cases hfirst : first = []
      · rw [if_pos hfirst, and_iff_right hfirst, List.cons_eq_cons, and_iff_right rfl, rewritePieces_eq_iff]
      · rw [if_neg hfirst]
        exact iff_of_true rfl fun h => hfirst h.1

/-- The pieces that are left are as long as they were. -/
theorem map_length_rewriteForm {limit : ℕ} (pieces : List Bytes) (m : MultipartMap) :
    (rewriteForm limit pieces m).map List.length = pieces.map List.length := by
  have hpieces : ∀ (pieces : List Bytes) (m : MultipartMap),
      (rewritePieces limit pieces m).map List.length = pieces.map List.length := by
    intro pieces
    induction pieces with
    | nil => exact fun _ => rfl
    | cons text rest ih =>
        intro m
        rw [rewritePieces]
        cases hpiece : readPiece (decide (limit ≤ m.count)) text with
        | last => rfl
        | broken e left => rw [List.map_cons, List.map_cons, length_readPiece_broken hpiece]
        | part name entry left => rw [List.map_cons, List.map_cons, length_readPiece hpiece, ih]
  cases pieces with
  | nil => rfl
  | cons first rest =>
      rw [rewriteForm]
      split
      · rw [List.map_cons, List.map_cons, hpieces]
      · rfl

/-- **A body is left as it was** exactly if nothing is escaped in the form. -/
theorem intercalate_rewriteForm_iff {d : Bytes} (hd : d ≠ []) {limit : ℕ} (s : Bytes) (m : MultipartMap) :
    d.intercalate (rewriteForm limit (splitSequence d hd s) m) = s ↔
      ¬EscapedForm limit m (splitSequence d hd s) := by
  rw [← rewriteForm_eq_iff]
  constructor
  · intro h
    refine @intercalate_inj d _ _ (map_length_rewriteForm _ m) ?_
    rw [h, intercalate_splitSequence]
  · intro h
    rw [h, intercalate_splitSequence]

end MultipartForm
end Dusty
