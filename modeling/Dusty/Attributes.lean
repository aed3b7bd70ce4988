import Dusty.QuotedValue

/-! # The attributes of a part

What the loop over the attributes reads (`readAttributes`), and what it leaves in the buffer
(`rewriteAttributes`). -/

namespace Dusty

/-- The first delimiter is behind the bytes that are none. -/
theorem findIdx_eq (text : Bytes) (d : UInt8) :
    (text.findIdx? (· == d) = none ∧ text.dropWhile (· ≠ d) = []) ∨
      ∃ more, text.findIdx? (· == d) = some (text.takeWhile (· ≠ d)).length ∧
        text.dropWhile (· ≠ d) = d :: more ∧ text = text.takeWhile (· ≠ d) ++ d :: more := by
  induction text with
  | nil => exact .inl ⟨rfl, rfl⟩
  | cons b text ih =>
      rw [List.findIdx?_cons]
      by_cases hb : b = d
      · subst hb
        refine .inr ⟨text, ?_, ?_, ?_⟩
        · rw [beq_self_eq_true, List.takeWhile_cons_of_neg (by simp)]
          rfl
        · rw [List.dropWhile_cons_of_neg (by simp)]
        · rw [List.takeWhile_cons_of_neg (by simp), List.nil_append]
      · rw [beq_false_of_ne hb, List.takeWhile_cons_of_pos (by simpa using hb),
          List.dropWhile_cons_of_pos (by simpa using hb)]
        rcases ih with ⟨hnone, hnil⟩ | ⟨more, hsome, hmore, htext⟩
        · rw [hnone]
          exact .inl ⟨rfl, hnil⟩
        · rw [hsome]
          exact .inr ⟨more, rfl, hmore, congrArg _ htext⟩

theorem suffix_eq {a b text : Bytes} (ha : a <:+ text) (hb : b <:+ text) (h : a.length = b.length) : a = b :=
  (List.suffix_of_suffix_length_le ha hb h.le).eq_of_length h

namespace MultipartForm

open Act

/-- What stands between attributes. -/
def isSeparator (b : UInt8) : Bool := b == 59 || b == 32 || b == 9

/-- An attribute that was read: its name, the bytes in front of its value, the value, the bytes behind
it, as they are left in the buffer, and what is still to be read. -/
structure Attribute where
  key : Bytes
  lead : Bytes
  value : Bytes
  trail : Bytes
  rest : Bytes

/-- What the buffer holds of an attribute that was read. -/
def Attribute.done (self : Attribute) : Bytes := self.lead ++ self.value ++ self.trail

/-- An attribute whose value is quoted, or what it leaves in the buffer if the quote is not closed. -/
def quotedAttribute (key quoted : Bytes) : Except Bytes Attribute :=
  match (unquote quoted).2 with
  | none => .error (key ++ [61, 34] ++ ((unquote quoted).1 ++ quoted.drop (unquote quoted).1.length))
  | some rest =>
      .ok
        { key := key
          lead := key ++ [61, 34]
          value := (unquote quoted).1
          trail := (quoted.drop (unquote quoted).1.length).take
            (quoted.length - rest.length - (unquote quoted).1.length)
          rest := rest }

/-- An attribute whose value is not quoted. -/
def plainAttribute (key valueText : Bytes) : Attribute :=
  { key := key
    lead := key ++ [61]
    value := valueText.takeWhile (· ≠ 59)
    trail := []
    rest := valueText.dropWhile (· ≠ 59) }

/-- The attribute that the text begins with, or what a broken one leaves in the buffer. -/
def nextAttribute (text : Bytes) : Except Bytes Attribute :=
  match text.dropWhile (· ≠ 61) with
  | [] => .error text
  | [_] => .error text
  | _ :: b :: more =>
      if b = 34 then quotedAttribute (text.takeWhile (· ≠ 61)) more
      else .ok (plainAttribute (text.takeWhile (· ≠ 61)) (b :: more))

/-- What is left behind an attribute is what was there. -/
theorem unquote_rest {text rest : Bytes} (h : (unquote text).2 = some rest) :
    ∃ consumed, text = consumed ++ rest ∧ (unquote text).1.length < consumed.length := by
  induction text using unquote_induction with
  | nil => cases h
  | trailing => cases h
  | escape n more hn ih =>
      rw [unquote_escape hn] at h ⊢
      obtain ⟨consumed, hmore, hlt⟩ := ih h
      refine ⟨92 :: n :: consumed, by rw [hmore]; rfl, ?_⟩
      simp only [List.length_cons]
      omega
  | backslash n more hn ih =>
      rw [unquote_backslash hn] at h ⊢
      obtain ⟨consumed, hmore, hlt⟩ := ih h
      refine ⟨92 :: consumed, by rw [hmore]; rfl, ?_⟩
      simp only [List.length_cons]
      omega
  | close more =>
      rw [unquote_close] at h ⊢
      cases h
      exact ⟨[34], rfl, Nat.zero_lt_one⟩
  | plain b more hbackslash hquote ih =>
      rw [unquote_plain hbackslash hquote] at h ⊢
      obtain ⟨consumed, hmore, hlt⟩ := ih h
      exact ⟨b :: consumed, by rw [hmore]; rfl, Nat.succ_lt_succ hlt⟩

/-- A quoted value takes some of the text, and leaves as much in the buffer. -/
theorem quotedAttribute_ok {key quoted : Bytes} {a : Attribute} (h : quotedAttribute key quoted = .ok a) :
    ∃ rest, (unquote quoted).2 = some rest ∧ a.key = key ∧ a.lead = key ++ [61, 34] ∧
      a.value = (unquote quoted).1 ∧ a.rest = rest ∧
      a.value ++ quoted.drop a.value.length = a.value ++ a.trail ++ rest ∧
      a.value.length + a.trail.length + rest.length = quoted.length := by
  unfold quotedAttribute at h
  cases hrest : (unquote quoted).2 with
  | none =>
      rw [hrest] at h
      cases h
  | some rest =>
      rw [hrest] at h
      cases h
      obtain ⟨consumed, htext, hlt⟩ := unquote_rest hrest
      have hdrop : quoted.drop (unquote quoted).1.length =
          consumed.drop (unquote quoted).1.length ++ rest := by
        have hcut : (consumed ++ rest).drop (unquote quoted).1.length =
            consumed.drop (unquote quoted).1.length ++ rest := List.drop_append_of_le_length hlt.le
        rwa [← htext] at hcut
      have htotal := congrArg List.length htext
      rw [List.length_append] at htotal
      have hlength : quoted.length - rest.length - (unquote quoted).1.length =
          (consumed.drop (unquote quoted).1.length).length := by
        rw [List.length_drop]
        omega
      have htrail : (quoted.drop (unquote quoted).1.length).take
          (quoted.length - rest.length - (unquote quoted).1.length) =
            consumed.drop (unquote quoted).1.length := by
        rw [hdrop, hlength, List.take_left' rfl]
      refine ⟨rest, rfl, rfl, rfl, rfl, rfl, ?_, ?_⟩
      · simp only [htrail]
        rw [hdrop, List.append_assoc]
      · simp only [htrail, List.length_drop]
        omega

/-- An attribute takes some of the text, and leaves as much in the buffer. -/
theorem nextAttribute_length {text : Bytes} {a : Attribute} (h : nextAttribute text = .ok a) :
    a.done.length + a.rest.length = text.length ∧ a.rest.length < text.length := by
  rcases findIdx_eq text 61 with ⟨-, hnil⟩ | ⟨more, -, hmore, htext⟩
  · rw [nextAttribute, hnil] at h
    cases h
  · rw [nextAttribute, hmore] at h
    have htotal := congrArg List.length htext
    rw [List.length_append, List.length_cons] at htotal
    cases more with
    | nil => cases h
    | cons b more =>
        simp only at h
        split at h
        · obtain ⟨rest, -, -, hlead, -, hrest, -, hlength⟩ := quotedAttribute_ok h
          simp only [Attribute.done, hlead, hrest, List.length_append, List.length_cons,
            List.length_nil] at htotal ⊢
          omega
        · cases h
          have hparts := congrArg List.length
            (List.takeWhile_append_dropWhile (p := (· ≠ 59)) (l := b :: more))
          simp only [Attribute.done, plainAttribute, List.length_append, List.length_cons,
            List.length_nil] at hparts htotal ⊢
          omega

/-- A broken attribute leaves as much in the buffer. -/
theorem nextAttribute_broken {text left : Bytes} (h : nextAttribute text = .error left) :
    left.length = text.length := by
  unfold nextAttribute at h
  rcases findIdx_eq text 61 with ⟨-, hnil⟩ | ⟨more, -, hmore, htext⟩
  · rw [hnil] at h
    cases h
    rfl
  · rw [hmore] at h
    have htotal := congrArg List.length htext
    rw [List.length_append, List.length_cons] at htotal
    cases more with
    | nil =>
        cases h
        rfl
    | cons b more =>
        simp only at h
        split at h
        · unfold quotedAttribute at h
          split at h
          · cases h
            have hle := (length_unquote more).1
            simp only [List.length_append, List.length_cons, List.length_nil, List.length_drop] at htotal ⊢
            omega
          · cases h
        · cases h

theorem attribute_key {key more : Bytes} {b : UInt8} {a : Attribute}
    (h : (if b = 34 then quotedAttribute key more else .ok (plainAttribute key (b :: more))) = .ok a) :
    a.key = key ∧ ∃ mark, a.lead = key ++ mark := by
  split at h
  · obtain ⟨rest, -, hkey, hlead, -⟩ := quotedAttribute_ok h
    exact ⟨hkey, [61, 34], hlead⟩
  · cases h
    exact ⟨rfl, [61], rfl⟩

/-! ### The loop -/

/-- The names and file names that the text of the attributes gives; `none` if one is broken. -/
def readAttributes (text : Bytes) (name filename : Option Bytes) : Option (Option Bytes × Option Bytes) :=
  match text with
  | [] => some (name, filename)
  | b :: rest =>
      if isSeparator b then readAttributes rest name filename
      else
        match h : nextAttribute (b :: rest) with
        | .error _ => none
        | .ok a =>
            have _hless : a.rest.length ≤ rest.length := Nat.le_of_lt_succ (nextAttribute_length h).2
            if a.key = ascii "name" then readAttributes a.rest (some a.value) filename
            else if a.key = ascii "filename" then readAttributes a.rest name (some a.value)
            else readAttributes a.rest name filename
termination_by text.length

/-- What is left of the text in the buffer. -/
def rewriteAttributes (text : Bytes) : Bytes :=
  match text with
  | [] => []
  | b :: rest =>
      if isSeparator b then b :: rewriteAttributes rest
      else
        match h : nextAttribute (b :: rest) with
        | .error left => left
        | .ok a =>
            have _hless : a.rest.length ≤ rest.length := Nat.le_of_lt_succ (nextAttribute_length h).2
            a.done ++ rewriteAttributes a.rest
termination_by text.length

theorem attributes_induction {P : Bytes → Prop} (nil : P [])
    (separator : ∀ b rest, isSeparator b = true → P rest → P (b :: rest))
    (broken : ∀ b rest left, isSeparator b = false → nextAttribute (b :: rest) = .error left →
      P (b :: rest))
    (found : ∀ b rest a, isSeparator b = false → nextAttribute (b :: rest) = .ok a → P a.rest →
      P (b :: rest)) (text : Bytes) : P text := by
  fun_induction rewriteAttributes text with
  | case1 => exact nil
  | case2 b rest hb ih => exact separator b rest hb ih
  | case3 b rest hb left h => exact broken b rest left (Bool.eq_false_iff.mpr hb) h
  | case4 b rest hb a h hlt ih => exact found b rest a (Bool.eq_false_iff.mpr hb) h ih

section
variable {b : UInt8} {rest : Bytes} {name filename : Option Bytes}

theorem readAttributes_separator (hb : isSeparator b = true) :
    readAttributes (b :: rest) name filename = readAttributes rest name filename := by
  rw [readAttributes, if_pos hb]

theorem readAttributes_broken {left : Bytes} (hb : isSeparator b = false)
    (h : nextAttribute (b :: rest) = .error left) : readAttributes (b :: rest) name filename = none := by
  rw [readAttributes, if_neg (Bool.eq_false_iff.mp hb)]
  split
  · rfl
  · next a ha =>
      rw [h] at ha
      cases ha

theorem readAttributes_found {a : Attribute} (hb : isSeparator b = false)
    (h : nextAttribute (b :: rest) = .ok a) :
    readAttributes (b :: rest) name filename =
      if a.key = ascii "name" then readAttributes a.rest (some a.value) filename
      else if a.key = ascii "filename" then readAttributes a.rest name (some a.value)
      else readAttributes a.rest name filename := by
  rw [readAttributes, if_neg (Bool.eq_false_iff.mp hb)]
  split
  · next left hleft =>
      rw [h] at hleft
      cases hleft
  · next a' ha =>
      rw [h] at ha
      cases ha
      rfl

theorem rewriteAttributes_separator (hb : isSeparator b = true) :
    rewriteAttributes (b :: rest) = b :: rewriteAttributes rest := by
  rw [rewriteAttributes, if_pos hb]

theorem rewriteAttributes_broken {left : Bytes} (hb : isSeparator b = false)
    (h : nextAttribute (b :: rest) = .error left) : rewriteAttributes (b :: rest) = left := by
  rw [rewriteAttributes, if_neg (Bool.eq_false_iff.mp hb)]
  split
  · next left' hleft =>
      rw [h] at hleft
      cases hleft
      rfl
  · next a ha =>
      rw [h] at ha
      cases ha

theorem rewriteAttributes_found {a : Attribute} (hb : isSeparator b = false)
    (h : nextAttribute (b :: rest) = .ok a) :
    rewriteAttributes (b :: rest) = a.done ++ rewriteAttributes a.rest := by
  rw [rewriteAttributes, if_neg (Bool.eq_false_iff.mp hb)]
  split
  · next left hleft =>
      rw [h] at hleft
      cases hleft
  · next a' ha =>
      rw [h] at ha
      cases ha
      rfl

end

theorem length_rewriteAttributes (text : Bytes) : (rewriteAttributes text).length = text.length := by
  induction text using attributes_induction with
  | nil => rw [rewriteAttributes]
  | separator b rest hb ih => rw [rewriteAttributes_separator hb, List.length_cons, ih, List.length_cons]
  | broken b rest left hb h => rw [rewriteAttributes_broken hb h, nextAttribute_broken h]
  | found b rest a hb h ih =>
      rw [rewriteAttributes_found hb h, List.length_append, ih, (nextAttribute_length h).1]

section
variable {fields : View} {before behind : Bytes}

/-- The value behind the `=`, and where the next attribute can begin. -/
theorem attributeValue_eq (behind : Bytes) {done key : Bytes} {b : UInt8} {more : Bytes}
    (hat : fields.At before (done ++ (key ++ 61 :: b :: more))) :
    match (if b = 34 then quotedAttribute key more else .ok (plainAttribute key (b :: more))) with
    | .error left =>
        attributeValue fields (done.length + key.length + 1)
            (before ++ (done ++ (key ++ 61 :: b :: more)) ++ behind) =
          .error (.err .invalidMultiPartEncoding) (before ++ (done ++ left) ++ behind)
    | .ok a =>
        ∃ value, attributeValue fields (done.length + key.length + 1)
            (before ++ (done ++ (key ++ 61 :: b :: more)) ++ behind) =
          .ok (value, (done ++ a.done).length) (before ++ (done ++ a.done ++ a.rest) ++ behind) ∧
          value.At (before ++ (done ++ a.lead)) a.value := by
  have hload : fields.load (done.length + key.length + 1)
      (before ++ (done ++ (key ++ 61 :: b :: more)) ++ behind) =
        .ok b (before ++ (done ++ (key ++ 61 :: b :: more)) ++ behind) := by
    refine hat.load behind ?_
    rw [Nat.add_assoc, List.getElem?_append_right (Nat.le_add_right _ _), Nat.add_sub_cancel_left,
      List.getElem?_append_right (Nat.le_add_right _ _), Nat.add_sub_cancel_left]
    rfl
  unfold attributeValue
  rw [bind_ok hload]
  by_cases hb : b = 34
  · subst hb
    rw [if_pos rfl, if_neg (not_not.mpr rfl)]
    have hmiddle : done ++ (key ++ 61 :: 34 :: more) = done ++ (key ++ [61, 34]) ++ [] ++ [] ++ more := by
      simp only [List.append_assoc, List.append_nil, List.cons_append, List.nil_append]
    have hlead : (done ++ (key ++ [61, 34])).length = done.length + key.length + 1 + 1 := by
      simp only [List.length_append, List.length_cons, List.length_nil]
      omega
    have hfuel : more.length < fields.len + 1 := by
      rw [hat.len]
      simp only [List.length_append, List.length_cons]
      omega
    rw [hmiddle] at hat ⊢
    have hloop := quotedLoop_eq behind hlead more hfuel hat
    rw [List.append_nil, List.append_nil, hlead] at hloop
    rw [List.append_nil, List.append_nil, hloop]
    unfold quotedEnd
    cases hattribute : quotedAttribute key more with
    | error left =>
        unfold quotedAttribute at hattribute
        cases hrest : (unquote more).2 with
        | none =>
            rw [hrest] at hattribute
            cases hattribute
            simp only [List.nil_append, List.append_assoc]
        | some rest =>
            rw [hrest] at hattribute
            cases hattribute
    | ok a =>
        obtain ⟨rest, hrest, hkey, halead, hvalue, harest, htrail, hlength⟩ := quotedAttribute_ok hattribute
        have hbuffer : done ++ (key ++ [61, 34]) ++ a.value ++ more.drop a.value.length =
            done ++ a.done ++ a.rest := by
          rw [List.append_assoc (done ++ (key ++ [61, 34])), htrail, Attribute.done, halead, harest]
          simp only [List.append_assoc]
        have hpos : (done ++ (key ++ [61, 34]) ++ [] ++ [] ++ more).length - rest.length =
            (done ++ a.done).length := by
          rw [Attribute.done, halead]
          simp only [List.length_append, List.length_cons, List.length_nil]
          omega
        rw [hrest]
        simp only [List.nil_append]
        rw [← hvalue, hpos, hbuffer, ← halead]
        exact ⟨_, rfl, rfl⟩
  · rw [if_neg hb, if_pos hb]
    have hmiddle : done ++ (key ++ 61 :: b :: more) = (done ++ (key ++ [61])) ++
        (b :: more).takeWhile (· ≠ 59) ++ (b :: more).dropWhile (· ≠ 59) := by
      rw [List.append_assoc _ _ (List.dropWhile _ _), List.takeWhile_append_dropWhile]
      simp only [List.append_assoc, List.cons_append, List.nil_append]
    have hstart : (done ++ (key ++ [61])).length = done.length + key.length + 1 := by
      simp only [List.length_append, List.length_singleton]
      omega
    have hend : (indexOfScalarPos (done ++ (key ++ 61 :: b :: more)) (done.length + key.length + 1)
        59).getD fields.len = done.length + key.length + 1 + ((b :: more).takeWhile (· ≠ 59)).length := by
      have hdrop : (done ++ (key ++ 61 :: b :: more)).drop (done.length + key.length + 1) = b :: more := by
        rw [hmiddle, List.append_assoc _ _ (List.dropWhile _ _), List.takeWhile_append_dropWhile, ← hstart,
          List.drop_left' rfl]
      unfold indexOfScalarPos
      rw [hdrop]
      rcases findIdx_eq (b :: more) 59 with ⟨hnone, hnil⟩ | ⟨rest, hsome, -, -⟩
      · rw [hnone, hat.len, hmiddle, hnil, List.append_nil, List.length_append, hstart]
        rfl
      · rw [hsome]
        rfl
    have hat' := hat
    rw [hmiddle] at hat'
    obtain ⟨value, hslice, hvalue⟩ := hat'.slice (before ++ (done ++ (key ++ 61 :: b :: more)) ++ behind)
    rw [hstart] at hslice
    refine ⟨value, ?_, ?_⟩
    · rw [bind_ok (hat.bytes behind), hend, bind_ok hslice, ← hstart, ← List.length_append]
      simp only [plainAttribute, Attribute.done, List.append_nil, List.append_assoc, pure_run,
        List.takeWhile_append_dropWhile, List.cons_append, List.nil_append]
    · exact hvalue

/-- A slice, if there is one, holds the value, if there is one, in a part of the buffer that is not
written to any more. -/
def Shows (before done : Bytes) : Option View → Option Bytes → Prop
  | none, none => True
  | some view, some value => ∃ pre post, done = pre ++ value ++ post ∧ view.At (before ++ pre) value
  | _, _ => False

theorem Shows.append {done : Bytes} {view : Option View} {value : Option Bytes}
    (h : Shows before done view value) (more : Bytes) : Shows before (done ++ more) view value := by
  match view, value with
  | none, none => exact h
  | some view, some value =>
      obtain ⟨pre, post, rfl, hat⟩ := h
      exact ⟨pre, post ++ more, by rw [List.append_assoc], hat⟩

variable (before behind) in
/-- How the loop ends: with what `readAttributes` reads of the rest of the text, and with what
`rewriteAttributes` leaves of it in the buffer. -/
def AttributesEnd (done text : Bytes) (nameText filenameText : Option Bytes)
    (result : EStateM.Result Fault Bytes (Option View × Option View)) : Prop :=
  match readAttributes text nameText filenameText with
  | none =>
      result = .error (.err .invalidMultiPartEncoding)
        (before ++ (done ++ rewriteAttributes text) ++ behind)
  | some (nameText', filenameText') =>
      ∃ name filename, result = .ok (name, filename) (before ++ (done ++ rewriteAttributes text) ++ behind) ∧
        Shows before (done ++ rewriteAttributes text) name nameText' ∧
        Shows before (done ++ rewriteAttributes text) filename filenameText'

theorem load_at {done rest : Bytes} {b : UInt8} (hat : fields.At before (done ++ b :: rest)) (behind : Bytes) :
    done.length < fields.len ∧
      fields.load done.length (before ++ (done ++ b :: rest) ++ behind) =
        .ok b (before ++ (done ++ b :: rest) ++ behind) := by
  constructor
  · rw [hat.len, List.length_append, List.length_cons]
    omega
  · refine hat.load behind ?_
    rw [List.getElem?_append_right le_rfl, Nat.sub_self]
    rfl

theorem attributeStep_ended {done : Bytes} (hat : fields.At before done) (buffer : Bytes) :
    attributeStep fields done.length buffer = .ok .ended buffer := by
  have hend : ¬done.length < fields.len := by
    rw [hat.len]
    exact lt_irrefl _
  unfold attributeStep
  rw [if_neg hend]
  rfl

theorem attributeStep_separator {done rest : Bytes} {b : UInt8} (hb : isSeparator b = true)
    (hat : fields.At before (done ++ b :: rest)) (behind : Bytes) :
    attributeStep fields done.length (before ++ (done ++ b :: rest) ++ behind) =
      .ok .separator (before ++ (done ++ b :: rest) ++ behind) := by
  obtain ⟨hlt, hload⟩ := load_at hat behind
  have hseparator : b = 59 ∨ b = 32 ∨ b = 9 := by simpa [isSeparator, or_assoc] using hb
  unfold attributeStep
  rw [if_pos hlt, bind_ok hload, if_pos hseparator]
  rfl

/-- **The body of the loop**: an attribute is read as `nextAttribute` reads it. -/
theorem attributeStep_next (behind : Bytes) {done rest : Bytes} {b : UInt8} (hb : isSeparator b = false)
    (hat : fields.At before (done ++ b :: rest)) :
    match nextAttribute (b :: rest) with
    | .error left =>
        attributeStep fields done.length (before ++ (done ++ b :: rest) ++ behind) =
          .error (.err .invalidMultiPartEncoding) (before ++ (done ++ left) ++ behind)
    | .ok a =>
        ∃ value, value.At (before ++ (done ++ a.lead)) a.value ∧
          attributeStep fields done.length (before ++ (done ++ b :: rest) ++ behind) =
            .ok (.attribute a.key value (done ++ a.done).length)
              (before ++ (done ++ a.done ++ a.rest) ++ behind) := by
  obtain ⟨hlt, hload⟩ := load_at hat behind
  have hseparator : ¬(b = 59 ∨ b = 32 ∨ b = 9) := by
    have hnot := Bool.eq_false_iff.mp hb
    simpa [isSeparator, or_assoc] using hnot
  unfold attributeStep
  rw [if_pos hlt, bind_ok hload, if_neg hseparator, bind_ok (hat.bytes behind)]
  unfold indexOfScalarPos
  rw [List.drop_left' rfl]
  rcases findIdx_eq (b :: rest) 61 with ⟨hnone, hnil⟩ | ⟨more, hsome, hmore, htext⟩
  · rw [hnone, nextAttribute, hnil]
    rfl
  · generalize hkey : (b :: rest).takeWhile (· ≠ 61) = key at hsome htext
    rw [hsome, nextAttribute, hmore, hkey]
    rw [htext] at hat ⊢
    have hkeyAt : fields.At before (done ++ key ++ 61 :: more) := by
      rw [List.append_assoc]
      exact hat
    obtain ⟨fieldName, hslice, hfieldName⟩ := hkeyAt.slice (before ++ (done ++ (key ++ 61 :: more)) ++ behind)
    simp only [Option.map_some]
    rw [bind_ok hslice]
    cases more with
    | nil =>
        have hend : done.length + key.length + 1 = fields.len := by
          rw [hat.len]
          simp only [List.length_append, List.length_singleton]
          omega
        rw [if_pos hend]
        rfl
    | cons c more =>
        have hend : ¬done.length + key.length + 1 = fields.len := by
          rw [hat.len]
          simp only [List.length_append, List.length_cons]
          omega
        rw [if_neg hend]
        have hvalue := attributeValue_eq behind hat
        simp only
        cases hattribute : (if c = 34 then quotedAttribute key more else .ok (plainAttribute key (c :: more))) with
        | error left =>
            rw [hattribute] at hvalue
            rw [bind_error hvalue]
        | ok a =>
            rw [hattribute] at hvalue
            obtain ⟨value, hrun, hshow⟩ := hvalue
            obtain ⟨hakey, mark, halead⟩ := attribute_key hattribute
            have hbuffer : before ++ (done ++ a.done ++ a.rest) ++ behind =
                before ++ done ++ key ++ (mark ++ a.value ++ a.trail ++ a.rest ++ behind) := by
              rw [Attribute.done, halead]
              simp only [List.append_assoc]
            have hname : fieldName.bytes (before ++ (done ++ a.done ++ a.rest) ++ behind) =
                .ok key (before ++ (done ++ a.done ++ a.rest) ++ behind) := by
              rw [hbuffer]
              exact hfieldName.bytes _
            refine ⟨value, hshow, ?_⟩
            rw [bind_ok hrun]
            simp only
            rw [bind_ok hname, hakey]
            rfl

/-- **The loop over the attributes**: it reads what `readAttributes` reads, and leaves what
`rewriteAttributes` leaves. -/
theorem attributesLoop_eq (text : Bytes) : ∀ {fuel : ℕ} {done : Bytes} {name filename : Option View}
    {nameText filenameText : Option Bytes}, text.length < fuel → fields.At before (done ++ text) →
    Shows before done name nameText → Shows before done filename filenameText →
    AttributesEnd before behind done text nameText filenameText
      (attributesLoop fields fuel done.length name filename (before ++ (done ++ text) ++ behind)) := by
  induction text using attributes_induction with
  | nil =>
      intro fuel done name filename nameText filenameText hfuel hat hname hfilename
      obtain ⟨fuel, rfl⟩ := Nat.exists_eq_succ_of_ne_zero (Nat.ne_of_gt (Nat.zero_lt_of_lt hfuel))
      rw [List.append_nil] at hat
      rw [AttributesEnd, readAttributes, rewriteAttributes, attributesLoop,
        bind_ok (attributeStep_ended hat _)]
      exact ⟨name, filename, rfl, hname.append [], hfilename.append []⟩
  | separator b rest hb ih =>
      intro fuel done name filename nameText filenameText hfuel hat hname hfilename
      obtain ⟨fuel, rfl⟩ := Nat.exists_eq_succ_of_ne_zero (Nat.ne_of_gt (Nat.zero_lt_of_lt hfuel))
      have hsnoc (more : Bytes) : done ++ [b] ++ more = done ++ b :: more := by
        rw [List.append_assoc, List.singleton_append]
      have hrest := ih (Nat.lt_of_succ_lt_succ hfuel) (hsnoc rest ▸ hat) (hname.append [b])
        (hfilename.append [b])
      rw [AttributesEnd, hsnoc, hsnoc, List.length_append] at hrest
      rw [AttributesEnd, readAttributes_separator hb, rewriteAttributes_separator hb, attributesLoop,
        bind_ok (attributeStep_separator hb hat behind)]
      exact hrest
  | broken b rest left hb h =>
      intro fuel done name filename nameText filenameText hfuel hat hname hfilename
      obtain ⟨fuel, rfl⟩ := Nat.exists_eq_succ_of_ne_zero (Nat.ne_of_gt (Nat.zero_lt_of_lt hfuel))
      have hnext := attributeStep_next behind hb hat
      rw [h] at hnext
      rw [AttributesEnd, readAttributes_broken hb h, rewriteAttributes_broken hb h, attributesLoop,
        bind_error hnext]
  | found b rest a hb h ih =>
      intro fuel done name filename nameText filenameText hfuel hat hname hfilename
      obtain ⟨fuel, rfl⟩ := Nat.exists_eq_succ_of_ne_zero (Nat.ne_of_gt (Nat.zero_lt_of_lt hfuel))
      obtain ⟨hlength, hless⟩ := nextAttribute_length h
      have hnext := attributeStep_next behind hb hat
      rw [h] at hnext
      obtain ⟨value, hvalue, hrun⟩ := hnext
      have hat' : fields.At before (done ++ a.done ++ a.rest) := by
        refine hat.congr ?_
        rw [List.append_assoc, List.length_append, List.length_append, List.length_append, hlength]
      have hfuel' : a.rest.length < fuel := by
        rw [List.length_cons] at hless hfuel
        omega
      have hshows : Shows before (done ++ a.done) (some value) (some a.value) :=
        ⟨done ++ a.lead, a.trail, by simp only [Attribute.done, List.append_assoc], hvalue⟩
      rw [AttributesEnd, readAttributes_found hb h, rewriteAttributes_found hb h, attributesLoop,
        bind_ok hrun, ← List.append_assoc done]
      simp only
      by_cases hnameKey : a.key = ascii "name"
      · rw [if_pos hnameKey, if_pos hnameKey]
        exact ih hfuel' hat' hshows (hfilename.append _)
      · rw [if_neg hnameKey, if_neg hnameKey]
        by_cases hfilenameKey : a.key = ascii "filename"
        · rw [if_pos hfilenameKey, if_pos hfilenameKey]
          exact ih hfuel' hat' (hname.append _) hshows
        · rw [if_neg hfilenameKey, if_neg hfilenameKey]
          exact ih hfuel' hat' (hname.append _) (hfilename.append _)

end

end MultipartForm
end Dusty
