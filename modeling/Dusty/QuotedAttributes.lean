import Dusty.PartHeader

/-! # Quoted attributes

An attribute whose value is quoted, with a backslash in front of every quote and every backslash.
`quoted_decodes_iff` is for which values it is read back. -/

namespace Dusty
namespace MultipartForm

open Act

/-! ### What is read of an escaped value -/

/-- A value with a backslash in front of every quote and every backslash. -/
def escape : Bytes → Bytes
  | [] => []
  | b :: rest => if b = 34 ∨ b = 92 then 92 :: b :: escape rest else b :: escape rest

/-- Every backslash has a character behind it that can be escaped and is no quote. -/
def Lone (s : Bytes) : Prop :=
  ∀ pre post, s = pre ++ 92 :: post → ∃ c rest, post = c :: rest ∧ c ≠ 34 ∧ isEscapable c = true

theorem lone_nil : Lone [] := fun pre post h => by
  cases pre <;> cases h

theorem lone_plain {b : UInt8} (hb : b ≠ 92) {s : Bytes} : Lone (b :: s) ↔ Lone s := by
  constructor
  · intro h pre post hs
    exact h (b :: pre) post (by rw [hs]; rfl)
  · intro h pre post hs
    cases pre with
    | nil =>
        obtain ⟨rfl, -⟩ := List.cons.inj hs
        exact absurd rfl hb
    | cons c pre => exact h pre post (List.cons.inj hs).2

theorem not_escapable_backslash : isEscapable 92 = false := by decide

theorem lone_backslash {c : UInt8} {s : Bytes} :
    Lone (92 :: c :: s) ↔ c ≠ 34 ∧ isEscapable c = true ∧ Lone s := by
  have hne : ∀ {c : UInt8}, isEscapable c = true → c ≠ 92 := by
    rintro c hc rfl
    exact absurd hc (by decide)
  constructor
  · intro h
    obtain ⟨d, rest, hcs, hd, hescapable⟩ := h [] (c :: s) rfl
    obtain ⟨rfl, rfl⟩ := List.cons.inj hcs
    refine ⟨hd, hescapable, fun pre post hs => h (92 :: c :: pre) post ?_⟩
    rw [hs]
    rfl
  · rintro ⟨hc, hescapable, h⟩ pre post hs
    cases pre with
    | nil =>
        obtain ⟨-, rfl⟩ := List.cons.inj hs
        exact ⟨c, s, rfl, hc, hescapable⟩
    | cons d pre =>
        exact (lone_plain (hne hescapable)).mpr h pre post (List.cons.inj hs).2

/-- What is read from a value on, and what is read from it with a backslash in front. -/
def readEscaped (s rest : Bytes) : Bytes × Option Bytes := unquote (escape s ++ 34 :: rest)

def readBehind (s rest : Bytes) : Bytes × Option Bytes := unquote (92 :: (escape s ++ 34 :: rest))

section
variable {rest : Bytes}

theorem readEscaped_nil : readEscaped [] rest = ([], some rest) := unquote_close rest

theorem readEscaped_plain {b : UInt8} (hbackslash : b ≠ 92) (hquote : b ≠ 34) (s : Bytes) :
    readEscaped (b :: s) rest = (b :: (readEscaped s rest).1, (readEscaped s rest).2) := by
  unfold readEscaped
  rw [escape, if_neg (not_or.mpr ⟨hquote, hbackslash⟩), List.cons_append, unquote_plain hbackslash hquote]

theorem readEscaped_quote (s : Bytes) :
    readEscaped (34 :: s) rest = (34 :: (readEscaped s rest).1, (readEscaped s rest).2) := by
  unfold readEscaped
  rw [escape, if_pos (.inl rfl)]
  exact unquote_escape (by decide) _

/-- A backslash is read as one, and the one behind it is still to be read. -/
theorem readEscaped_backslash (s : Bytes) :
    readEscaped (92 :: s) rest = (92 :: (readBehind s rest).1, (readBehind s rest).2) := by
  unfold readEscaped readBehind
  rw [escape, if_pos (.inr rfl)]
  exact unquote_backslash not_escapable_backslash _

theorem readBehind_nil : readBehind [] rest = (34 :: (unquote rest).1, (unquote rest).2) :=
  unquote_escape (by decide) rest

theorem readBehind_escapable {c : UInt8} (hc : isEscapable c = true) (hquote : c ≠ 34) (s : Bytes) :
    readBehind (c :: s) rest = (c :: (readEscaped s rest).1, (readEscaped s rest).2) := by
  have hbackslash : c ≠ 92 := by
    rintro rfl
    exact absurd hc (by decide)
  unfold readBehind readEscaped
  rw [escape, if_neg (not_or.mpr ⟨hquote, hbackslash⟩)]
  exact unquote_escape hc _

/-- With a backslash in front, any other character is read behind a second backslash. -/
theorem readBehind_other {c : UInt8} (hc : isEscapable c = false ∨ c = 34) (s : Bytes) :
    ∃ more, readBehind (c :: s) rest = (92 :: more, (readEscaped (c :: s) rest).2) ∧
      more = (readEscaped (c :: s) rest).1 := by
  unfold readBehind readEscaped
  by_cases hescaped : c = 34 ∨ c = 92
  · rw [escape, if_pos hescaped]
    exact ⟨_, unquote_backslash not_escapable_backslash _, rfl⟩
  · have hno : isEscapable c = false := hc.resolve_right fun h => hescaped (.inl h)
    rw [escape, if_neg hescaped]
    exact ⟨_, unquote_backslash hno _, rfl⟩

theorem length_le_readEscaped (s : Bytes) :
    s.length ≤ (readEscaped s rest).1.length ∧ s.length ≤ (readBehind s rest).1.length := by
  induction s with
  | nil => exact ⟨Nat.zero_le _, Nat.zero_le _⟩
  | cons c s ih =>
      have hread : (c :: s).length ≤ (readEscaped (c :: s) rest).1.length := by
        by_cases hbackslash : c = 92
        · rw [hbackslash, readEscaped_backslash]
          exact Nat.succ_le_succ ih.2
        · by_cases hquote : c = 34
          · rw [hquote, readEscaped_quote]
            exact Nat.succ_le_succ ih.1
          · rw [readEscaped_plain hbackslash hquote]
            exact Nat.succ_le_succ ih.1
      refine ⟨hread, ?_⟩
      by_cases hc : isEscapable c = true ∧ c ≠ 34
      · rw [readBehind_escapable hc.1 hc.2]
        exact Nat.succ_le_succ ih.1
      · have hother : isEscapable c = false ∨ c = 34 := by
          rw [not_and_or, Bool.not_eq_true, not_ne_iff] at hc
          exact hc
        obtain ⟨more, hmore, rfl⟩ := readBehind_other hother s
        rw [hmore]
        exact hread.trans (Nat.le_succ _)

theorem cons_read_iff {b : UInt8} {s : Bytes} {read : Bytes × Option Bytes} :
    (b :: read.1, read.2) = (b :: s, some rest) ↔ read = (s, some rest) := by
  rw [Prod.ext_iff, Prod.ext_iff, List.cons.injEq, and_iff_right rfl]

/-- **A quoted value is read back** exactly if every backslash in it stands alone in front of a character
that can be escaped and is no quote. -/
theorem readEscaped_eq_iff : ∀ {s : Bytes}, readEscaped s rest = (s, some rest) ↔ Lone s
  | [] => iff_of_true readEscaped_nil lone_nil
  | b :: s => by
      by_cases hbackslash : b = 92
      · subst hbackslash
        rw [readEscaped_backslash, cons_read_iff]
        match s with
        | [] =>
            rw [readBehind_nil]
            refine iff_of_false (fun h => ?_) fun h => ?_
            · cases (Prod.ext_iff.mp h).1
            · obtain ⟨c, more, hcons, -⟩ := h [] [] rfl
              cases hcons
        | c :: s =>
            rw [lone_backslash]
            by_cases hc : isEscapable c = true ∧ c ≠ 34
            · rw [readBehind_escapable hc.1 hc.2, cons_read_iff, and_iff_right hc.2, and_iff_right hc.1]
              exact readEscaped_eq_iff
            · have hother : isEscapable c = false ∨ c = 34 := by
                rw [not_and_or, Bool.not_eq_true, not_ne_iff] at hc
                exact hc
              obtain ⟨more, hmore, rfl⟩ := @readBehind_other rest _ hother s
              refine iff_of_false (fun h => ?_) fun h => hc ⟨h.2.1, h.1⟩
              -- one byte too many was read
              have hlength := congrArg (fun read => read.1.length) h
              have hle := (@length_le_readEscaped rest (c :: s)).1
              rw [hmore] at hlength
              simp only [List.length_cons] at hlength hle
              omega
      · have hrest : readEscaped (b :: s) rest = (b :: (readEscaped s rest).1, (readEscaped s rest).2) := by
          by_cases hquote : b = 34
          · rw [hquote, readEscaped_quote]
          · exact readEscaped_plain hbackslash hquote s
        rw [hrest, lone_plain hbackslash, cons_read_iff]
        exact readEscaped_eq_iff

end

/-! ### Attributes as they are written -/

/-- The value of an attribute: a token, or what is quoted. -/
inductive AttributeValue where
  | token (text : Bytes)
  | quoted (content : Bytes)
deriving DecidableEq, Repr

namespace AttributeValue

/-- How a value is written. -/
def text : AttributeValue → Bytes
  | token text => text
  | quoted content => 34 :: escape content ++ [34]

/-- What a value is. -/
def content : AttributeValue → Bytes
  | token text => text
  | quoted content => content

/-- A token is one, and there is no line end in quotes. -/
def Sound : AttributeValue → Prop
  | token text => validHeaderName text = true
  | quoted content => 13 ∉ content ∧ 10 ∉ content

/-- The value is read back. -/
def Readable : AttributeValue → Prop
  | token _ => True
  | quoted content => Lone content

end AttributeValue

/-- An attribute, with what separates it from the one in front. -/
structure WrittenAttribute where
  lead : Bytes
  key : Bytes
  value : AttributeValue
  lead_separators : ∀ b ∈ lead, isSeparator b = true
  key_token : validHeaderName key = true
  sound : value.Sound

namespace WrittenAttribute

/-- How an attribute is written. -/
def text (self : WrittenAttribute) : Bytes := self.lead ++ (self.key ++ 61 :: self.value.text)

/-- Attributes one behind the other, with a `;` between them. -/
def Separated (attributes : List WrittenAttribute) : Prop :=
  attributes.IsChain fun _ a => a.lead.head? = some 59

/-- What the last attribute with the name is. -/
def last (key : Bytes) (attributes : List WrittenAttribute) : Option Bytes :=
  (attributes.reverse.find? fun a => decide (a.key = key)).map fun a => a.value.content

end WrittenAttribute

theorem token_bytes {token : Bytes} (h : validHeaderName token = true) :
    token ≠ [] ∧ ∀ b ∈ token, isSeparator b = false ∧ b ≠ 61 ∧ b ≠ 59 ∧ b ≠ 34 := by
  unfold validHeaderName at h
  rw [Bool.and_eq_true, List.all_eq_true] at h
  refine ⟨by simpa using h.1, fun b hb => ?_⟩
  have hmem : b ∈ allowedHeaderNameBytes := by simpa using h.2 b hb
  have hall : ∀ b ∈ allowedHeaderNameBytes, isSeparator b = false ∧ b ≠ 61 ∧ b ≠ 59 ∧ b ≠ 34 := by decide
  exact hall b hmem

/-- The first attribute of a text, as far as its name. -/
theorem nextAttribute_key {key : Bytes} (hkey : validHeaderName key = true) {b : UInt8} {more : Bytes} :
    nextAttribute (key ++ 61 :: b :: more) =
      if b = 34 then quotedAttribute key more else .ok (plainAttribute key (b :: more)) := by
  have hno : ∀ c ∈ key, decide (c ≠ 61) = true := fun c hc =>
    decide_eq_true ((token_bytes hkey).2 c hc).2.1
  have htake : (key ++ 61 :: b :: more).takeWhile (· ≠ 61) = key := by
    rw [List.takeWhile_append_of_pos hno, List.takeWhile_cons_of_neg (by decide), List.append_nil]
  have hdrop : (key ++ 61 :: b :: more).dropWhile (· ≠ 61) = 61 :: b :: more := by
    rw [List.dropWhile_append_of_pos hno, List.dropWhile_cons_of_neg (by decide)]
  rw [nextAttribute, hdrop, htake]

theorem nextAttribute_token {key token rest : Bytes} (hkey : validHeaderName key = true)
    (htoken : validHeaderName token = true) (hrest : rest = [] ∨ rest.head? = some 59) :
    nextAttribute (key ++ 61 :: (token ++ rest)) =
      .ok { key := key, lead := key ++ [61], value := token, trail := [], rest := rest } := by
  obtain ⟨hne, hbytes⟩ := token_bytes htoken
  obtain ⟨b, more, rfl⟩ := List.exists_cons_of_ne_nil hne
  have hno : ∀ c ∈ b :: more, decide (c ≠ 59) = true := fun c hc =>
    decide_eq_true (hbytes c hc).2.2.1
  have hends : rest.takeWhile (· ≠ 59) = [] ∧ rest.dropWhile (· ≠ 59) = rest := by
    rcases hrest with rfl | hhead
    · exact ⟨rfl, rfl⟩
    · cases rest with
      | nil => cases hhead
      | cons c rest =>
          obtain rfl : c = 59 := by simpa using hhead
          exact ⟨List.takeWhile_cons_of_neg (by decide), List.dropWhile_cons_of_neg (by decide)⟩
  rw [List.cons_append, nextAttribute_key hkey, if_neg (hbytes b List.mem_cons_self).2.2.2,
    ← List.cons_append, plainAttribute, List.takeWhile_append_of_pos hno, List.dropWhile_append_of_pos hno,
    hends.1, hends.2, List.append_nil]

/-- An attribute whose value is quoted is read as far as `quotedAttribute` reads it. -/
theorem nextAttribute_quoted {key : Bytes} (hkey : validHeaderName key = true) (content rest : Bytes) :
    nextAttribute (key ++ 61 :: (34 :: escape content ++ [34] ++ rest)) =
      quotedAttribute key (escape content ++ 34 :: rest) := by
  have htext : 34 :: escape content ++ [34] ++ rest = 34 :: (escape content ++ 34 :: rest) := by
    simp only [List.cons_append, List.append_assoc, List.nil_append]
  rw [htext, nextAttribute_key hkey, if_pos rfl]

/-- A quoted attribute is read, up to its closing quote, exactly if its value is read back. -/
theorem quotedAttribute_iff {key content rest : Bytes} :
    (∃ a, quotedAttribute key (escape content ++ 34 :: rest) = .ok a ∧ a.value = content ∧
        a.rest.length = rest.length) ↔ Lone content := by
  rw [← @readEscaped_eq_iff rest content]
  unfold readEscaped
  constructor
  · rintro ⟨a, ha, hvalue, hlength⟩
    obtain ⟨rest', hrest, -, -, hread, harest, -⟩ := quotedAttribute_ok ha
    obtain ⟨consumed, htext, -⟩ := unquote_rest hrest
    have hsame : rest' = rest := by
      rw [← harest] at htext
      have hsuffix : a.rest <:+ escape content ++ 34 :: rest := ⟨consumed, htext.symm⟩
      have hsuffix' : rest <:+ escape content ++ 34 :: rest :=
        ⟨escape content ++ [34], by rw [List.append_assoc, List.singleton_append]⟩
      rw [← harest]
      exact suffix_eq hsuffix hsuffix' hlength
    rw [Prod.ext_iff, ← hread, hvalue, hrest, hsame]
    exact ⟨rfl, rfl⟩
  · intro h
    unfold quotedAttribute
    rw [h]
    exact ⟨_, rfl, rfl, rfl⟩

section
variable {fields : View} {before behind : Bytes}

/-- The attribute is read, and the loop goes on right behind it. -/
def Reads (fields : View) (a : WrittenAttribute) (pos : ℕ) (buffer buffer' : Bytes) : Prop :=
  ∃ value, attributeStep fields (pos + a.lead.length) buffer =
      .ok (.attribute a.key value (pos + a.text.length)) buffer' ∧ value.text buffer' = a.value.content

/-- The attributes are read one behind the other. -/
def ReadsAll (fields : View) : List WrittenAttribute → ℕ → Bytes → Prop
  | [], _, _ => True
  | a :: rest, pos, buffer =>
      (∀ i < a.lead.length, attributeStep fields (pos + i) buffer = .ok .separator buffer) ∧
        ∃ buffer', Reads fields a pos buffer buffer' ∧ ReadsAll fields rest (pos + a.text.length) buffer'

theorem attributeStep_lead {done lead more : Bytes} (hlead : ∀ b ∈ lead, isSeparator b = true)
    (hat : fields.At before (done ++ (lead ++ more))) (behind : Bytes) {i : ℕ} (hi : i < lead.length) :
    attributeStep fields (done.length + i) (before ++ (done ++ (lead ++ more)) ++ behind) =
      .ok .separator (before ++ (done ++ (lead ++ more)) ++ behind) := by
  have hcut : lead = lead.take i ++ lead[i] :: lead.drop (i + 1) := by
    rw [List.getElem_cons_drop, List.take_append_drop]
  have hpos : done.length + i = (done ++ lead.take i).length := by
    rw [List.length_append, List.length_take, Nat.min_eq_left hi.le]
  have htext : done ++ (lead ++ more) = (done ++ lead.take i) ++ lead[i] :: (lead.drop (i + 1) ++ more) := by
    conv_lhs => rw [hcut]
    simp only [List.append_assoc, List.cons_append]
  rw [htext] at hat ⊢
  rw [hpos]
  exact attributeStep_separator (hlead _ (List.getElem_mem hi)) hat behind

/-- What is still to be read behind an attribute is the end of the text. -/
theorem nextAttribute_suffix {text : Bytes} {a : Attribute} (h : nextAttribute text = .ok a) :
    a.rest <:+ text := by
  rcases findIdx_eq text 61 with ⟨-, hnil⟩ | ⟨more, -, hmore, htext⟩
  · rw [nextAttribute, hnil] at h
    cases h
  · rw [nextAttribute, hmore] at h
    have hbehind : more <:+ text := ⟨text.takeWhile (· ≠ 61) ++ [61], by
      rw [List.append_assoc, List.singleton_append, ← htext]⟩
    cases more with
    | nil => cases h
    | cons b more =>
        simp only at h
        split at h
        · obtain ⟨rest, hrest, -, -, -, rfl, -⟩ := quotedAttribute_ok h
          obtain ⟨consumed, hconsumed, -⟩ := unquote_rest hrest
          exact (List.suffix_cons_iff.mpr (.inr ⟨consumed, hconsumed.symm⟩)).trans hbehind
        · cases h
          exact (List.dropWhile_suffix _).trans hbehind

/-- How an attribute is read, in terms of the text alone. -/
theorem reads_next {a : WrittenAttribute} {done rest : Bytes}
    (hat : fields.At before (done ++ (a.text ++ rest))) (behind buffer' : Bytes) :
    Reads fields a done.length (before ++ (done ++ (a.text ++ rest)) ++ behind) buffer' ↔
      ∃ read, nextAttribute (a.key ++ 61 :: (a.value.text ++ rest)) = .ok read ∧ read.key = a.key ∧
        read.value = a.value.content ∧ read.rest.length = rest.length ∧
        buffer' = before ++ (done ++ (a.lead ++ read.done ++ rest)) ++ behind := by
  obtain ⟨hne, hbytes⟩ := token_bytes a.key_token
  obtain ⟨b, key, hkey⟩ := List.exists_cons_of_ne_nil hne
  have hb : isSeparator b = false := (hbytes b (by rw [hkey]; exact List.mem_cons_self)).1
  have htext : done ++ (a.text ++ rest) =
      (done ++ a.lead) ++ b :: (key ++ 61 :: (a.value.text ++ rest)) := by
    rw [WrittenAttribute.text, hkey]
    simp only [List.append_assoc, List.cons_append]
  have hwhole : a.key ++ 61 :: (a.value.text ++ rest) = b :: (key ++ 61 :: (a.value.text ++ rest)) := by
    rw [hkey, List.cons_append]
  have htotal : a.text.length + rest.length =
      a.lead.length + (a.key ++ 61 :: (a.value.text ++ rest)).length := by
    rw [WrittenAttribute.text]
    simp only [List.length_append, List.length_cons]
    omega
  rw [htext] at hat ⊢
  have hstep := attributeStep_next behind hb hat
  rw [← hwhole] at hstep ⊢
  unfold Reads
  rw [← List.length_append]
  cases hnext : nextAttribute (a.key ++ 61 :: (a.value.text ++ rest)) with
  | error left =>
      rw [hnext] at hstep
      simp only at hstep
      rw [hstep]
      constructor
      · rintro ⟨value, hrun, -⟩
        cases hrun
      · rintro ⟨read, hread, -⟩
        cases hread
  | ok read =>
      rw [hnext] at hstep
      obtain ⟨value, hvalue, hrun⟩ := hstep
      obtain ⟨hlength, -⟩ := nextAttribute_length hnext
      have hvalueText : value.text (before ++ (done ++ a.lead ++ read.done ++ read.rest) ++ behind) =
          read.value := by
        have hplace := hvalue.text (read.trail ++ read.rest ++ behind)
        rw [Attribute.done]
        simp only [List.append_assoc] at hplace ⊢
        exact hplace
      have hpos : (done ++ a.lead ++ read.done).length = done.length + a.text.length ↔
          read.rest.length = rest.length := by
        rw [List.length_append, List.length_append]
        omega
      have hend : read.rest.length = rest.length → read.rest = rest := fun h =>
        have hsuffix : rest <:+ a.key ++ 61 :: (a.value.text ++ rest) :=
          ⟨a.key ++ 61 :: a.value.text, by simp only [List.append_assoc, List.cons_append]⟩
        suffix_eq (nextAttribute_suffix hnext) hsuffix h
      rw [hrun]
      constructor
      · rintro ⟨value', hsame, hcontent⟩
        injection hsame with hposition hbuffer
        injection hposition with hkey' hview hplace
        subst hview
        have hrest := hpos.mp hplace
        rw [← hbuffer, hvalueText] at hcontent
        refine ⟨read, rfl, hkey', hcontent, hrest, ?_⟩
        rw [← hbuffer, hend hrest]
        simp only [List.append_assoc]
      · rintro ⟨read', hread, hkey', hcontent, hrest, rfl⟩
        cases hread
        have hbuffer : before ++ (done ++ a.lead ++ read.done ++ read.rest) ++ behind =
            before ++ (done ++ (a.lead ++ read.done ++ rest)) ++ behind := by
          rw [hend hrest]
          simp only [List.append_assoc]
        refine ⟨value, ?_, ?_⟩
        · rw [hkey', hpos.mpr hrest, hbuffer]
        · rw [← hbuffer, hvalueText, hcontent]

/-- The text of an attribute is read as it was written exactly if the value is read back. -/
theorem next_iff {a : WrittenAttribute} {rest : Bytes} (hrest : rest = [] ∨ rest.head? = some 59) :
    (∃ read, nextAttribute (a.key ++ 61 :: (a.value.text ++ rest)) = .ok read ∧ read.key = a.key ∧
        read.value = a.value.content ∧ read.rest.length = rest.length) ↔ a.value.Readable := by
  cases hvalue : a.value with
  | token token =>
      have hsound := a.sound
      rw [hvalue] at hsound
      exact iff_of_true ⟨_, nextAttribute_token a.key_token hsound hrest, rfl, rfl, rfl⟩ trivial
  | quoted content =>
      have hread : nextAttribute (a.key ++ 61 :: ((AttributeValue.quoted content).text ++ rest)) =
          quotedAttribute a.key (escape content ++ 34 :: rest) := nextAttribute_quoted a.key_token content rest
      rw [hread]
      refine Iff.trans ?_ (@quotedAttribute_iff a.key content rest)
      constructor
      · rintro ⟨read, hok, -, hcontent, hlength⟩
        exact ⟨read, hok, hcontent, hlength⟩
      · rintro ⟨read, hok, hcontent, hlength⟩
        obtain ⟨-, -, hkey, -⟩ := quotedAttribute_ok hok
        exact ⟨read, hok, hkey, hcontent, hlength⟩

/-- **An attribute is read** exactly if its value is read back, whatever is in front of it and
behind it. -/
theorem reads_iff {a : WrittenAttribute} {done rest : Bytes}
    (hrest : rest = [] ∨ rest.head? = some 59) (hat : fields.At before (done ++ (a.text ++ rest)))
    (behind : Bytes) :
    (∃ buffer', Reads fields a done.length (before ++ (done ++ (a.text ++ rest)) ++ behind) buffer') ↔
      a.value.Readable := by
  simp only [reads_next hat behind]
  rw [← next_iff hrest]
  constructor
  · rintro ⟨_, read, hok, hkey, hcontent, hlength, -⟩
    exact ⟨read, hok, hkey, hcontent, hlength⟩
  · rintro ⟨read, hok, hkey, hcontent, hlength⟩
    exact ⟨_, read, hok, hkey, hcontent, hlength, rfl⟩

/-- What follows an attribute begins with a `;`, if it is not the end. -/
theorem separated_rest {a : WrittenAttribute} {rest : List WrittenAttribute}
    (h : WrittenAttribute.Separated (a :: rest)) :
    rest.flatMap WrittenAttribute.text = [] ∨ (rest.flatMap WrittenAttribute.text).head? = some 59 := by
  cases rest with
  | nil => exact .inl rfl
  | cons b rest =>
      have hb : b.lead.head? = some 59 := (List.isChain_cons_cons.mp h).1
      refine .inr ?_
      rw [List.flatMap_cons, WrittenAttribute.text, List.append_assoc]
      cases hlead : b.lead with
      | nil =>
          rw [hlead] at hb
          cases hb
      | cons c lead =>
          rw [hlead] at hb
          exact hb

/-- **The attributes are read one behind the other** exactly if the value of every one is read back. -/
theorem readsAll_iff {attributes : List WrittenAttribute} (hsep : WrittenAttribute.Separated attributes)
    (behind : Bytes) : ∀ {done : Bytes}, fields.At before (done ++ attributes.flatMap WrittenAttribute.text) →
    (ReadsAll fields attributes done.length
        (before ++ (done ++ attributes.flatMap WrittenAttribute.text) ++ behind) ↔
      ∀ a ∈ attributes, a.value.Readable) := by
  induction attributes with
  | nil =>
      intro done _
      exact iff_of_true trivial fun a ha => absurd ha List.not_mem_nil
  | cons a rest ih =>
      intro done hat
      rw [List.flatMap_cons] at hat ⊢
      have hlead : ∀ i < a.lead.length, attributeStep fields (done.length + i)
          (before ++ (done ++ (a.text ++ rest.flatMap WrittenAttribute.text)) ++ behind) =
            .ok .separator (before ++ (done ++ (a.text ++ rest.flatMap WrittenAttribute.text)) ++ behind) := by
        intro i hi
        have htext : a.text ++ rest.flatMap WrittenAttribute.text =
            a.lead ++ (a.key ++ 61 :: a.value.text ++ rest.flatMap WrittenAttribute.text) := by
          rw [WrittenAttribute.text, List.append_assoc]
        rw [htext] at hat ⊢
        exact attributeStep_lead a.lead_separators hat behind hi
      have hread := reads_iff (separated_rest hsep) hat behind
      rw [ReadsAll, and_iff_right hlead, List.forall_mem_cons, ← hread, ← exists_and_right]
      refine exists_congr fun buffer' => and_congr_right fun hreads => ?_
      obtain ⟨read, hnext, -, -, hrest, rfl⟩ := (reads_next hat behind buffer').mp hreads
      have hlength : (a.lead ++ read.done).length = a.text.length := by
        have htotal := (nextAttribute_length hnext).1
        rw [WrittenAttribute.text]
        simp only [List.length_append, List.length_cons] at htotal ⊢
        omega
      generalize a.lead ++ read.done = left at hlength ⊢
      have hpos : done.length + a.text.length = (done ++ left).length := by
        rw [List.length_append, hlength]
      have hat' : fields.At before (done ++ left ++ rest.flatMap WrittenAttribute.text) := by
        refine hat.congr ?_
        rw [List.append_assoc, List.length_append, List.length_append, List.length_append,
          List.length_append, hlength]
      have hrest := ih hsep.of_cons hat'
      rw [List.append_assoc done] at hrest
      rw [hpos]
      exact hrest

end

/-! ### What is read of them -/

theorem readAttributes_lead {lead more : Bytes} (hlead : ∀ b ∈ lead, isSeparator b = true)
    (name filename : Option Bytes) :
    readAttributes (lead ++ more) name filename = readAttributes more name filename := by
  induction lead with
  | nil => rfl
  | cons b lead ih =>
      rw [List.forall_mem_cons] at hlead
      rw [List.cons_append, readAttributes_separator hlead.1, ih hlead.2]

theorem last_cons (key : Bytes) (a : WrittenAttribute) (rest : List WrittenAttribute) :
    WrittenAttribute.last key (a :: rest) =
      (WrittenAttribute.last key rest).or (if a.key = key then some a.value.content else none) := by
  unfold WrittenAttribute.last
  rw [List.reverse_cons, List.find?_append, Option.map_or, List.find?_singleton]
  by_cases hkey : a.key = key
  · rw [if_pos hkey, if_pos (decide_eq_true hkey)]
    rfl
  · rw [if_neg hkey, if_neg (by simpa using hkey)]
    rfl

/-- The last attribute with a name is the one that counts. -/
theorem readAttributes_written {attributes : List WrittenAttribute}
    (hsep : WrittenAttribute.Separated attributes) (hreadable : ∀ a ∈ attributes, a.value.Readable) :
    ∀ name filename, readAttributes (attributes.flatMap WrittenAttribute.text) name filename =
      some ((WrittenAttribute.last (ascii "name") attributes).or name,
        (WrittenAttribute.last (ascii "filename") attributes).or filename) := by
  induction attributes with
  | nil =>
      intro name filename
      rw [List.flatMap_nil, readAttributes]
      rfl
  | cons a rest ih =>
      intro name filename
      rw [List.forall_mem_cons] at hreadable
      obtain ⟨hne, hbytes⟩ := token_bytes a.key_token
      obtain ⟨b, key, hkey⟩ := List.exists_cons_of_ne_nil hne
      have hb : isSeparator b = false := (hbytes b (by rw [hkey]; exact List.mem_cons_self)).1
      obtain ⟨read, hnext, hreadKey, hcontent, hlength⟩ := (next_iff (separated_rest hsep)).mpr hreadable.1
      have hrest : read.rest = rest.flatMap WrittenAttribute.text :=
        have hsuffix : rest.flatMap WrittenAttribute.text <:+
            a.key ++ 61 :: (a.value.text ++ rest.flatMap WrittenAttribute.text) :=
          ⟨a.key ++ 61 :: a.value.text, by simp only [List.append_assoc, List.cons_append]⟩
        suffix_eq (nextAttribute_suffix hnext) hsuffix hlength
      have htext : a.text ++ rest.flatMap WrittenAttribute.text =
          a.lead ++ b :: (key ++ 61 :: (a.value.text ++ rest.flatMap WrittenAttribute.text)) := by
        rw [WrittenAttribute.text, hkey]
        simp only [List.append_assoc, List.cons_append]
      have hfound := hnext
      rw [hkey, List.cons_append] at hfound
      rw [List.flatMap_cons, htext, readAttributes_lead a.lead_separators, readAttributes_found hb hfound,
        hreadKey, hcontent, hrest, last_cons, last_cons]
      have hih := ih hsep.of_cons hreadable.2
      by_cases hname : a.key = ascii "name"
      · have hother : a.key ≠ ascii "filename" := by
          rw [hname]
          decide
        rw [if_pos hname, if_pos hname, if_neg hother, hih, Option.or_none]
        simp only [Option.or_assoc, Option.some_or]
      · rw [if_neg hname, if_neg hname, Option.or_none]
        by_cases hfilename : a.key = ascii "filename"
        · rw [if_pos hfilename, if_pos hfilename, hih]
          simp only [Option.or_assoc, Option.some_or]
        · rw [if_neg hfilename, if_neg hfilename, hih, Option.or_none]

theorem Shows.text_eq {before done : Bytes} {view : View} {value : Bytes}
    (h : Shows before done (some view) (some value)) (behind : Bytes) :
    view.text (before ++ done ++ behind) = value := by
  obtain ⟨pre, post, rfl, hat⟩ := h
  have hwhole : before ++ (pre ++ value ++ post) ++ behind = before ++ pre ++ value ++ (post ++ behind) := by
    simp only [List.append_assoc]
  rw [hwhole]
  exact hat.text _

/-- The attributes of a text are decoded: they are read one behind the other, and the last name and
the last file name are what is returned. -/
def Decodes (fields : View) (attributes : List WrittenAttribute) (buffer : Bytes) : Prop :=
  ReadsAll fields attributes 0 buffer ∧
    match WrittenAttribute.last (ascii "name") attributes with
    | none => ∃ buffer', getContentDispositionAttributes fields buffer =
        .error (.err .invalidMultiPartEncoding) buffer'
    | some name => ∃ found buffer', getContentDispositionAttributes fields buffer = .ok found buffer' ∧
        found.name.text buffer' = name ∧
        (found.filename.map fun filename => filename.text buffer') =
          WrittenAttribute.last (ascii "filename") attributes

/-- What is returned of attributes that are all read back. -/
theorem decodes_of_readable {fields : View} {before : Bytes} {attributes : List WrittenAttribute}
    (hat : fields.At before (attributes.flatMap WrittenAttribute.text))
    (hsep : WrittenAttribute.Separated attributes) (behind : Bytes)
    (hreadable : ∀ a ∈ attributes, a.value.Readable) :
    Decodes fields attributes (before ++ attributes.flatMap WrittenAttribute.text ++ behind) := by
  refine ⟨(@readsAll_iff fields before attributes hsep behind [] hat).mpr hreadable, ?_⟩
  have hrun := getContentDispositionAttributes_eq hat behind
  rw [readAttributes_written hsep hreadable, Option.or_none, Option.or_none] at hrun
  cases hname : WrittenAttribute.last (ascii "name") attributes with
  | none =>
      rw [hname] at hrun
      exact ⟨_, hrun⟩
  | some name =>
      rw [hname] at hrun
      obtain ⟨found, hok, hshown, hshown'⟩ := hrun
      refine ⟨found, _, hok, hshown.text_eq behind, ?_⟩
      match hview : found.filename, hlast : WrittenAttribute.last (ascii "filename") attributes with
      | none, none => rfl
      | some filename, some text =>
          rw [hview, hlast] at hshown'
          exact congrArg some (hshown'.text_eq behind)
      | none, some _ | some _, none =>
          rw [hview, hlast] at hshown'
          exact absurd hshown' id

/-! ### Rewriting in place -/

/-- The turns of the loop over a quoted value: the next byte to read, the next byte to write, and the
buffer. -/
inductive QuotedRun (fields : View) (valueStart : ℕ) (buffer : Bytes) : ℕ → ℕ → Bytes → Prop
  | start : QuotedRun fields valueStart buffer (valueStart + 1) (valueStart + 1) buffer
  | step {pos writePos pos' writePos' : ℕ} {now now' : Bytes}
      (h : QuotedRun fields valueStart buffer pos writePos now) (hlt : pos < fields.len)
      (hstep : quotedStep fields valueStart pos writePos now = .ok (.next pos' writePos') now') :
      QuotedRun fields valueStart buffer pos' writePos' now'

/-- A byte is written only where the write position is. -/
theorem store_getElem {view : View} {i j : ℕ} {b : UInt8} {now now' : Bytes}
    (h : view.store i b now = .ok () now') (hne : view.start + i ≠ j) : now'[j]? = now[j]? := by
  unfold View.store at h
  obtain ⟨_, now₁, hassert, hwrite⟩ := bind_eq_ok.mp h
  rw [assert_run] at hassert
  split at hassert
  · cases hassert
    cases hwrite
    exact List.getElem?_set_ne hne
  · cases hassert

theorem load_state {view : View} {i : ℕ} {b : UInt8} {now now' : Bytes} (h : view.load i now = .ok b now') :
    now' = now := by
  unfold View.load at h
  rw [bind_ok (get_run now)] at h
  cases hget : (view.text now)[i]? with
  | none =>
      rw [hget] at h
      cases h
  | some c =>
      rw [hget] at h
      cases h
      rfl

/-- One turn: the read position goes on by as much as the write position at least, and the bytes
behind it are not written to. -/
theorem quotedStep_behind {fields : View} {valueStart pos writePos pos' writePos' : ℕ} {now now' : Bytes}
    (h : quotedStep fields valueStart pos writePos now = .ok (.next pos' writePos') now')
    (hle : writePos ≤ pos) :
    pos < pos' ∧ writePos' ≤ pos' ∧ ∀ i, fields.start + pos' ≤ i → now'[i]? = now[i]? := by
  -- whatever is written is written in front of the next byte to read
  have hwrite : ∀ {c : UInt8} {step : ℕ} {now₁ : Bytes}, 0 < step →
      (do
        fields.store writePos c
        pure (.next (pos + step) (writePos + 1)) : Act Bytes QuotedPos) now₁ = .ok (.next pos' writePos') now' →
      pos < pos' ∧ writePos' ≤ pos' ∧ ∀ i, fields.start + pos' ≤ i → now'[i]? = now₁[i]? := by
    intro c step now₁ hstep hrun
    obtain ⟨_, now₂, hstore, hnext⟩ := bind_eq_ok.mp hrun
    cases hnext
    refine ⟨by omega, by omega, fun i hi => store_getElem hstore ?_⟩
    omega
  unfold quotedStep at h
  obtain ⟨b, now₁, hload, hrest⟩ := bind_eq_ok.mp h
  obtain rfl := load_state hload
  split at hrest
  · split at hrest
    · cases hrest
    · obtain ⟨n, now₂, hload', hmore⟩ := bind_eq_ok.mp hrest
      obtain rfl := load_state hload'
      split at hmore
      · exact hwrite two_pos hmore
      · exact hwrite one_pos hmore
  · split at hrest
    · obtain ⟨value, now₂, -, hclosed⟩ := bind_eq_ok.mp hrest
      cases hclosed
    · exact hwrite one_pos hrest

/-- **The rewriting never overwrites a byte that was not read yet.** -/
theorem quotedRun_behind {fields : View} {valueStart : ℕ} {buffer : Bytes} {pos writePos : ℕ} {now : Bytes}
    (h : QuotedRun fields valueStart buffer pos writePos now) :
    writePos ≤ pos ∧ ∀ i, fields.start + pos ≤ i → now[i]? = buffer[i]? := by
  induction h with
  | start => exact ⟨le_rfl, fun _ _ => rfl⟩
  | step h hlt hstep ih =>
      obtain ⟨hmore, hle, hsame⟩ := quotedStep_behind hstep ih.1
      refine ⟨hle, fun i hi => ?_⟩
      rw [hsame i hi]
      exact ih.2 i (by omega)

/-- **Quoted attribute values**: the attributes are decoded and nothing unread is overwritten, exactly
if every backslash of a quoted value stands alone in front of a character that can be escaped and is
no quote. -/
theorem quoted_decodes_iff {fields : View} {before : Bytes} {attributes : List WrittenAttribute}
    (hat : fields.At before (attributes.flatMap WrittenAttribute.text))
    (hsep : WrittenAttribute.Separated attributes) (behind : Bytes) :
    (Decodes fields attributes (before ++ attributes.flatMap WrittenAttribute.text ++ behind) ∧
        ∀ valueStart buffer pos writePos now, QuotedRun fields valueStart buffer pos writePos now →
          writePos ≤ pos ∧ ∀ i, fields.start + pos ≤ i → now[i]? = buffer[i]?) ↔
      ∀ a ∈ attributes, a.value.Readable := by
  rw [and_iff_left fun _ _ _ _ _ h => quotedRun_behind h]
  constructor
  · rintro ⟨hreads, -⟩
    exact (@readsAll_iff fields before attributes hsep behind [] hat).mp hreads
  · exact decodes_of_readable hat hsep behind

theorem nothing_separates : ∀ b ∈ ([] : Bytes), isSeparator b = true :=
  fun _ h => absurd h List.not_mem_nil

theorem name_token : validHeaderName (ascii "name") = true := by decide

theorem semicolon_separates : ∀ b ∈ ascii "; ", isSeparator b = true := by decide

theorem filename_token : validHeaderName (ascii "filename") = true := by decide

/-- `name="a\\b"`, for a name with a backslash. -/
def backslashName : WrittenAttribute where
  lead := []
  key := ascii "name"
  value := .quoted (ascii "a\\b")
  lead_separators := nothing_separates
  key_token := name_token
  sound := ⟨by decide, by decide⟩

/-- An escaped backslash is read twice. -/
theorem quoted_decodes_not : ¬Decodes ⟨0, 11⟩ [backslashName] (ascii "name=\"a\\\\b\"") := by
  have hread : yields (fun found buffer => decide (found.name.text buffer = ascii "a\\\\b"))
      (getContentDispositionAttributes ⟨0, 11⟩) (ascii "name=\"a\\\\b\"") = true := by decide +kernel
  obtain ⟨found, buffer', hrun, hname⟩ := yields_iff.mp hread
  rintro ⟨-, found', buffer'', hrun', hname', -⟩
  rw [hrun] at hrun'
  cases hrun'
  rw [of_decide_eq_true hname] at hname'
  exact absurd hname' (by decide)

/-- `; filename="a\(\"b"`, behind a name. -/
def escapedFilename : WrittenAttribute where
  lead := ascii "; "
  key := ascii "filename"
  value := .quoted (ascii "a\\(\"b")
  lead_separators := semicolon_separates
  key_token := filename_token
  sound := ⟨by decide, by decide⟩

theorem quoted_decodes_iff_sample :
    (Decodes ⟨0, 31⟩ [backslashName, escapedFilename]
          ([] ++ [backslashName, escapedFilename].flatMap WrittenAttribute.text ++ []) ∧
        ∀ valueStart buffer pos writePos now, QuotedRun ⟨0, 31⟩ valueStart buffer pos writePos now →
          writePos ≤ pos ∧ ∀ i, (0 : ℕ) + pos ≤ i → now[i]? = buffer[i]?) ↔
      ∀ a ∈ [backslashName, escapedFilename], a.value.Readable :=
  quoted_decodes_iff (by unfold View.At; decide)
    (List.isChain_cons_cons.mpr ⟨by decide, List.isChain_singleton _⟩) []

end MultipartForm
end Dusty
