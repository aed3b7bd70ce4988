import Dusty.Attributes

/-! # The header of a part

What the loop over the header lines of a part reads (`readHeader`), what it leaves of them in the
buffer (`rewriteHeader`), and what a part says in the end (`readEntry`). -/

namespace Dusty
namespace MultipartForm

open Act

section
variable {before behind : Bytes}

/-! ### Blanks -/

/-- The text without the blanks in front. -/
def trim (text : Bytes) : Bytes := text.dropWhile isBlank

/-- Blanks are left out; a slice of nothing is anywhere. -/
theorem trimLeadingSpace_eq {input : View} {text : Bytes} (hat : input.At before text) (behind : Bytes) :
    ∃ out pre post, trimLeadingSpace input (before ++ text ++ behind) = .ok out (before ++ text ++ behind) ∧
      before ++ text ++ behind = pre ++ trim text ++ post ∧ out.At pre (trim text) ∧
      (trim text ≠ [] → pre = before ++ text.takeWhile isBlank ∧ post = behind) := by
  have hparts : text.takeWhile isBlank ++ trim text = text := List.takeWhile_append_dropWhile
  have hone : ∃ one, oneSpace input (before ++ text ++ behind) = .ok one (before ++ text ++ behind) ∧
      (one = true → (text.takeWhile isBlank).length = 1 ∧ 1 < text.length) := by
    unfold oneSpace
    rw [hat.len]
    match text with
    | [] => exact ⟨false, rfl, fun h => by cases h⟩
    | [b] => exact ⟨false, rfl, fun h => by cases h⟩
    | b :: c :: rest =>
        rw [if_pos (by simp), bind_ok (hat.load behind rfl)]
        by_cases hb : b = 32
        · subst hb
          rw [if_pos rfl, bind_ok (hat.load behind rfl)]
          refine ⟨!isBlank c, rfl, fun h => ?_⟩
          have hc : isBlank c = false := by simpa using h
          rw [List.takeWhile_cons_of_pos (by rfl), List.takeWhile_cons_of_neg (by simp [hc])]
          exact ⟨rfl, by simp⟩
        · rw [if_neg hb]
          exact ⟨false, rfl, fun h => by cases h⟩
  obtain ⟨one, hrun, hcommon⟩ := hone
  have hlength := congrArg List.length hparts
  rw [List.length_append] at hlength
  have hat' : input.At before (text.takeWhile isBlank ++ trim text ++ []) := by
    rw [List.append_nil, hparts]
    exact hat
  obtain ⟨out, hslice, hout⟩ := hat'.slice (before ++ text ++ behind)
  have hbuffer : before ++ text ++ behind = before ++ text.takeWhile isBlank ++ trim text ++ behind := by
    rw [List.append_assoc before (text.takeWhile isBlank), hparts]
  rw [hlength, ← hat.len] at hslice
  unfold trimLeadingSpace trimLeadingSpaceCount
  rw [bind_run, bind_ok hrun]
  cases one with
  | true =>
      obtain ⟨hfirst, hlt⟩ := hcommon rfl
      rw [hfirst] at hslice
      rw [if_pos rfl, bind_ok hslice]
      exact ⟨out, _, behind, rfl, hbuffer, hout, fun _ => ⟨rfl, rfl⟩⟩
  | false =>
      rw [if_neg Bool.false_ne_true, bind_ok (hat.bytes behind)]
      by_cases hrest : (text.takeWhile isBlank).length < input.len
      · rw [if_pos hrest, bind_ok hslice]
        exact ⟨out, _, behind, rfl, hbuffer, hout, fun _ => ⟨rfl, rfl⟩⟩
      · have hnil : trim text = [] := by
          rw [hat.len] at hrest
          exact List.length_eq_zero_iff.mp (by omega)
        rw [if_neg hrest, hnil]
        exact ⟨⟨0, 0⟩, [], before ++ text ++ behind, rfl, rfl, rfl, fun h => absurd rfl h⟩

/-! ### A line -/

/-- What a line says of the name and the file name: `none` if it is broken, nothing if it is about
something else. -/
def readLine (line : Bytes) : Option (Option (Bytes × Option Bytes)) :=
  if !startsWithIgnoreCase line (ascii "content-disposition:") then some none
  else if !startsWithIgnoreCase (trim (line.drop 20)) (ascii "form-data;") then none
  else
    match readAttributes (trim ((trim (line.drop 20)).drop 10).dropLast) none none with
    | some (some name, filename) => some (some (name, filename))
    | _ => none

/-- What is left of a line in the buffer. -/
def rewriteLine (line : Bytes) : Bytes :=
  if !startsWithIgnoreCase line (ascii "content-disposition:") then line
  else if !startsWithIgnoreCase (trim (line.drop 20)) (ascii "form-data;") then line
  else
    let fields := trim ((trim (line.drop 20)).drop 10).dropLast
    line.take (line.length - 1 - fields.length) ++ rewriteAttributes fields ++ line.drop (line.length - 1)

/-- Slices hold what a part says of its name and file name. -/
def Held (before done : Bytes) : Option ContentDispositionAttributes → Option (Bytes × Option Bytes) → Prop
  | none, none => True
  | some attributes, some (name, filename) =>
      Shows before done (some attributes.name) (some name) ∧ Shows before done attributes.filename filename
  | _, _ => False

theorem Held.append {done : Bytes} {attributes : Option ContentDispositionAttributes}
    {said : Option (Bytes × Option Bytes)} (h : Held before done attributes said) (more : Bytes) :
    Held before (done ++ more) attributes said := by
  match attributes, said with
  | none, none => exact h
  | some _, some (_, _) => exact ⟨h.1.append more, h.2.append more⟩

theorem Shows.lift {pre done : Bytes} {view : Option View} {value : Option Bytes}
    (h : Shows (before ++ pre) done view value) : Shows before (pre ++ done) view value := by
  match view, value with
  | none, none => exact h
  | some view, some value =>
      obtain ⟨first, last, rfl, hat⟩ := h
      refine ⟨pre ++ first, last, by simp only [List.append_assoc], ?_⟩
      rw [← List.append_assoc]
      exact hat

theorem Shows.bytes {done : Bytes} {view : View} {value : Bytes}
    (h : Shows before done (some view) (some value)) (behind : Bytes) :
    view.bytes (before ++ done ++ behind) = .ok value (before ++ done ++ behind) := by
  obtain ⟨pre, post, rfl, hat⟩ := h
  have hwhole : before ++ (pre ++ value ++ post) ++ behind = before ++ pre ++ value ++ (post ++ behind) := by
    simp only [List.append_assoc]
  rw [hwhole]
  exact hat.bytes _

theorem Held.lift {pre done : Bytes} {attributes : Option ContentDispositionAttributes}
    {said : Option (Bytes × Option Bytes)} (h : Held (before ++ pre) done attributes said) :
    Held before (pre ++ done) attributes said := by
  match attributes, said with
  | none, none => exact h
  | some _, some (_, _) => exact ⟨h.1.lift, h.2.lift⟩

theorem getContentDispositionAttributes_eq {fields : View} {text : Bytes} (hat : fields.At before text)
    (behind : Bytes) :
    match readAttributes text none none with
    | some (some name, filename) =>
        ∃ attributes, getContentDispositionAttributes fields (before ++ text ++ behind) =
          .ok attributes (before ++ rewriteAttributes text ++ behind) ∧
          Held before (rewriteAttributes text) (some attributes) (some (name, filename))
    | _ =>
        getContentDispositionAttributes fields (before ++ text ++ behind) =
          .error (.err .invalidMultiPartEncoding) (before ++ rewriteAttributes text ++ behind) := by
  have hfuel : text.length < fields.len + 1 := by
    rw [hat.len]
    exact Nat.lt_succ_self _
  have hloop := @attributesLoop_eq fields before behind text _ [] none none none none hfuel hat trivial
    trivial
  rw [List.nil_append, List.length_nil] at hloop
  unfold AttributesEnd at hloop
  rw [List.nil_append] at hloop
  unfold getContentDispositionAttributes
  cases hread : readAttributes text none none with
  | none =>
      rw [hread] at hloop
      rw [bind_error hloop]
  | some said =>
      obtain ⟨nameText, filenameText⟩ := said
      rw [hread] at hloop
      obtain ⟨name, filename, hrun, hname, hfilename⟩ := hloop
      rw [bind_ok hrun]
      match name, nameText with
      | none, none => rfl
      | some name, some nameText => exact ⟨⟨name, filename⟩, rfl, hname, hfilename⟩

/-- A value that begins with `form-data;` and ends with a carriage return holds both. -/
theorem formData_value {value : Bytes} (h : startsWithIgnoreCase value (ascii "form-data;") = true)
    (hlast : value.getLast? = some 13) : ∃ lead fields, value = lead ++ fields ++ [13] ∧ lead.length = 10 := by
  obtain ⟨lead, rest, rfl, hlength, hlead⟩ := startsWithIgnoreCase_split h
  rcases List.eq_nil_or_concat rest with rfl | ⟨fields, b, rfl⟩
  · have hsame := congrArg List.getLast? (eqlIgnoreCase_iff.mp hlead)
    rw [List.append_nil] at hlast
    rw [List.getLast?_map, hlast] at hsame
    exact absurd hsame (by decide)
  · rw [List.concat_eq_append, ← List.append_assoc, List.getLast?_concat, Option.some.injEq] at hlast
    subst hlast
    exact ⟨lead, fields, by rw [List.concat_eq_append, List.append_assoc], hlength⟩

theorem rewriteLine_eq {skipped fields : Bytes}
    (hdisposition : startsWithIgnoreCase (skipped ++ fields ++ [13]) (ascii "content-disposition:") = true)
    (hform : startsWithIgnoreCase (trim ((skipped ++ fields ++ [13]).drop 20)) (ascii "form-data;") = true)
    (hfields : trim ((trim ((skipped ++ fields ++ [13]).drop 20)).drop 10).dropLast = fields) :
    rewriteLine (skipped ++ fields ++ [13]) = skipped ++ rewriteAttributes fields ++ [13] := by
  have hlength : (skipped ++ fields ++ [13]).length - 1 = (skipped ++ fields).length := by
    rw [@List.length_append _ _ [13], List.length_singleton, Nat.add_sub_cancel]
  have hskipped : (skipped ++ fields).length - fields.length = skipped.length := by
    rw [List.length_append, Nat.add_sub_cancel]
  unfold rewriteLine
  rw [hdisposition, hform, Bool.not_true, if_neg Bool.false_ne_true, if_neg Bool.false_ne_true]
  simp only
  rw [hfields, hlength, hskipped, List.drop_left' rfl, List.append_assoc skipped fields,
    List.take_left' rfl]

/-- **A header line**: what it says of the name and the file name, and what it leaves in the buffer. -/
theorem dispositionLine_eq {line : View} {done text : Bytes} {attributes : Option ContentDispositionAttributes}
    {said : Option (Bytes × Option Bytes)} (hat : line.At (before ++ done) text)
    (hlast : text.getLast? = some 13) (hheld : Held before done attributes said) (behind : Bytes) :
    match readLine text with
    | none =>
        dispositionLine line attributes (before ++ done ++ text ++ behind) =
          .error (.err .invalidMultiPartEncoding) (before ++ done ++ rewriteLine text ++ behind)
    | some said' =>
        ∃ attributes', dispositionLine line attributes (before ++ done ++ text ++ behind) =
          .ok attributes' (before ++ done ++ rewriteLine text ++ behind) ∧
          Held before (done ++ rewriteLine text) attributes' (said'.or said) := by
  unfold dispositionLine
  rw [bind_ok (hat.bytes behind)]
  cases hdisposition : startsWithIgnoreCase text (ascii "content-disposition:") with
  | false =>
      have hline : readLine text = some none := by
        unfold readLine
        rw [hdisposition]
        rfl
      have hleft : rewriteLine text = text := by
        unfold rewriteLine
        rw [hdisposition]
        rfl
      rw [hline, hleft]
      exact ⟨attributes, rfl, hheld.append text⟩
  | true =>
      obtain ⟨head, rest, rfl, hhead, -⟩ := startsWithIgnoreCase_split hdisposition
      have hdrop : (head ++ rest).drop 20 = rest := List.drop_left' hhead
      have hat' : line.At (before ++ done) (head ++ rest ++ []) := by
        rw [List.append_nil]
        exact hat
      obtain ⟨inner, hslice, hinner⟩ := hat'.slice (before ++ done ++ (head ++ rest) ++ behind)
      have hlen : line.len = head.length + rest.length := by rw [hat.len, List.length_append]
      rw [← hlen, show head.length = 20 from hhead] at hslice
      rw [Bool.not_true, if_neg Bool.false_ne_true, bind_ok hslice]
      obtain ⟨out, pre, post, htrim, hbuffer, hout, hplace⟩ := trimLeadingSpace_eq hinner behind
      rw [List.append_assoc (before ++ done) head rest] at htrim hbuffer
      rw [bind_ok htrim, hbuffer, bind_ok (hout.bytes post)]
      cases hform : startsWithIgnoreCase (trim rest) (ascii "form-data;") with
      | false =>
          have hline : readLine (head ++ rest) = none := by
            unfold readLine
            rw [hdisposition, hdrop, hform]
            rfl
          have hleft : rewriteLine (head ++ rest) = head ++ rest := by
            unfold rewriteLine
            rw [hdisposition, hdrop, hform]
            rfl
          rw [hline, hleft, ← hbuffer]
          rfl
      | true =>
          have hrest : trim rest ≠ [] := by
            intro hnil
            rw [hnil] at hform
            cases hform
          obtain ⟨hpre, hpost⟩ := hplace hrest
          have hblanks : rest.takeWhile isBlank ++ trim rest = rest := List.takeWhile_append_dropWhile
          have hvalueLast : (trim rest).getLast? = some 13 := by
            rw [← hblanks, ← List.append_assoc, List.getLast?_append_of_ne_nil _ hrest] at hlast
            exact hlast
          obtain ⟨lead, mid, hvalue, hlead⟩ := formData_value hform hvalueLast
          have hmid : ((trim rest).drop 10).dropLast = mid := by
            rw [hvalue, List.append_assoc, List.drop_left' hlead, List.dropLast_concat]
          have hmidBlanks : mid.takeWhile isBlank ++ trim mid = mid := List.takeWhile_append_dropWhile
          have houtLen : out.len = (lead.length + mid.length) + 1 := by
            rw [hout.len, hvalue, @List.length_append _ _ [13], List.length_append, List.length_singleton]
          have houtAt : out.At pre (lead ++ mid ++ [13]) := hvalue ▸ hout
          obtain ⟨view, hview, hviewAt⟩ := houtAt.slice (pre ++ trim rest ++ post)
          have hend : View.minus out.len 1 (pre ++ trim rest ++ post) =
              .ok (lead.length + mid.length) (pre ++ trim rest ++ post) := by
            rw [View.minus_ok (by omega), houtLen, Nat.add_sub_cancel]
          rw [hlead] at hview hend
          rw [Bool.not_true, if_neg Bool.false_ne_true, bind_ok hend, bind_ok hview]
          have hwhole : pre ++ trim rest ++ post = pre ++ lead ++ mid ++ ([13] ++ post) := by
            rw [hvalue]
            simp only [List.append_assoc]
          obtain ⟨out', pre', post', htrim', hbuffer', hout', hplace'⟩ :=
            trimLeadingSpace_eq hviewAt ([13] ++ post)
          rw [hwhole, bind_ok htrim', hbuffer']
          -- the line is what was skipped, the attributes and the carriage return
          have hline : head ++ rest =
              (head ++ rest.takeWhile isBlank ++ lead ++ mid.takeWhile isBlank) ++ trim mid ++ [13] := by
            rw [List.append_assoc _ (mid.takeWhile isBlank), hmidBlanks, List.append_assoc _ lead,
              List.append_assoc _ (lead ++ mid), ← hvalue, List.append_assoc head, hblanks]
          have hread : readLine (head ++ rest) =
              match readAttributes (trim mid) none none with
              | some (some name, filename) => some (some (name, filename))
              | _ => none := by
            unfold readLine
            rw [hdisposition, hdrop, hform, hmid]
            rfl
          have hleft : rewriteLine (head ++ rest) =
              head ++ rest.takeWhile isBlank ++ lead ++ mid.takeWhile isBlank ++
                rewriteAttributes (trim mid) ++ [13] := by
            rw [hline] at hdisposition hdrop ⊢
            refine rewriteLine_eq hdisposition ?_ ?_
            · rw [hdrop]
              exact hform
            · rw [hdrop, hmid]
          have hsame : pre' ++ rewriteAttributes (trim mid) ++ post' =
              before ++ done ++ rewriteLine (head ++ rest) ++ behind := by
            rw [hleft]
            by_cases hnil : trim mid = []
            · rw [hnil] at hbuffer' hline ⊢
              rw [rewriteAttributes, ← hbuffer', ← hwhole, ← hbuffer, hline]
            · obtain ⟨rfl, rfl⟩ := hplace' hnil
              rw [hpre, hpost]
              simp only [List.append_assoc]
          have hattributes := getContentDispositionAttributes_eq hout' post'
          rw [hread]
          cases hsaid : readAttributes (trim mid) none none with
          | none =>
              rw [hsaid] at hattributes
              simp only at hattributes ⊢
              rw [bind_error hattributes, hsame]
          | some names =>
              obtain ⟨name, filename⟩ := names
              rw [hsaid] at hattributes
              cases name with
              | none =>
                  simp only at hattributes ⊢
                  rw [bind_error hattributes, hsame]
              | some name =>
                  obtain ⟨found, hrun, hfound⟩ := hattributes
                  simp only
                  rw [bind_ok hrun, hsame]
                  refine ⟨some found, rfl, ?_⟩
                  have hsome : trim mid ≠ [] := by
                    intro hnil
                    rw [hnil, readAttributes] at hsaid
                    cases hsaid
                  obtain ⟨hpre', -⟩ := hplace' hsome
                  rw [hpre', hpre] at hfound
                  simp only [List.append_assoc] at hfound
                  have hshown := (Held.lift hfound).append [13]
                  rw [hleft]
                  simp only [List.append_assoc] at hshown ⊢
                  exact hshown

end

/-! ### The header -/

/-- What the loop over the header lines finds at the next one: a broken line, with what is left of the
text; the empty line; or what a line says, what is left of it, and the lines behind it. -/
inductive HeaderLine where
  | broken (left : Bytes)
  | last (rest : Bytes)
  | line (said : Option (Bytes × Option Bytes)) (left rest : Bytes)

/-- The next header line. -/
def nextLine (text : Bytes) : HeaderLine :=
  match text.dropWhile (· ≠ 10) with
  | [] => .broken text
  | _ :: rest =>
      if (text.takeWhile (· ≠ 10)).getLast? ≠ some 13 then .broken text
      else if text.takeWhile (· ≠ 10) = [13] then .last rest
      else
        match readLine (text.takeWhile (· ≠ 10)) with
        | none => .broken (rewriteLine (text.takeWhile (· ≠ 10)) ++ 10 :: rest)
        | some said => .line said (rewriteLine (text.takeWhile (· ≠ 10)) ++ [10]) rest

theorem nextLine_of_not_mem {text : Bytes} (h : 10 ∉ text) : nextLine text = .broken text := by
  rcases findIdx_eq text 10 with ⟨-, hnil⟩ | ⟨more, -, -, htext⟩
  · rw [nextLine, hnil]
  · exact absurd (htext ▸ List.mem_append_right _ List.mem_cons_self) h

theorem cut_line {line : Bytes} (h : 10 ∉ line) (rest : Bytes) :
    (line ++ 10 :: rest).takeWhile (· ≠ 10) = line ∧ (line ++ 10 :: rest).dropWhile (· ≠ 10) = 10 :: rest := by
  have hno : ∀ b ∈ line, decide (b ≠ 10) = true := fun b hb => decide_eq_true fun heq => h (heq ▸ hb)
  constructor
  · rw [List.takeWhile_append_of_pos hno, List.takeWhile_cons_of_neg (by decide), List.append_nil]
  · rw [List.dropWhile_append_of_pos hno, List.dropWhile_cons_of_neg (by decide)]

/-- The next line is the one up to the next line end. -/
theorem nextLine_append {line : Bytes} (h : 10 ∉ line) (rest : Bytes) :
    nextLine (line ++ 10 :: rest) =
      if line.getLast? ≠ some 13 then .broken (line ++ 10 :: rest)
      else if line = [13] then .last rest
      else
        match readLine line with
        | none => .broken (rewriteLine line ++ 10 :: rest)
        | some said => .line said (rewriteLine line ++ [10]) rest := by
  rw [nextLine, (cut_line h rest).1, (cut_line h rest).2]

theorem line_cases (text : Bytes) : 10 ∉ text ∨ ∃ line rest, 10 ∉ line ∧ text = line ++ 10 :: rest := by
  by_cases h : 10 ∈ text
  · obtain ⟨line, rest, rfl, hline⟩ := List.eq_append_cons_of_mem h
    exact .inr ⟨line, rest, hline, rfl⟩
  · exact .inl h

theorem length_rewriteLine (line : Bytes) : (rewriteLine line).length = line.length := by
  unfold rewriteLine
  split
  · rfl
  · split
    · rfl
    · have hvalue := (List.dropWhile_suffix isBlank (l := line.drop 20)).length_le
      have hfields := (List.dropWhile_suffix isBlank
        (l := ((trim (line.drop 20)).drop 10).dropLast)).length_le
      rw [List.length_dropLast, List.length_drop] at hfields
      rw [List.length_drop] at hvalue
      simp only [List.length_append, List.length_take, List.length_drop, length_rewriteAttributes]
      unfold trim at hfields ⊢
      omega

/-- A header line takes some of the text, and leaves as much in the buffer. -/
theorem nextLine_length {text left rest : Bytes} {said : Option (Bytes × Option Bytes)}
    (h : nextLine text = .line said left rest) :
    left.length + rest.length = text.length ∧ rest.length < text.length := by
  unfold nextLine at h
  rcases findIdx_eq text 10 with ⟨-, hnil⟩ | ⟨more, -, hmore, htext⟩
  · rw [hnil] at h
    cases h
  · rw [hmore] at h
    have htotal := congrArg List.length htext
    rw [List.length_append, List.length_cons] at htotal
    simp only at h
    split at h
    · cases h
    · split at h
      · cases h
      · split at h
        · cases h
        · cases h
          rw [List.length_append, length_rewriteLine, List.length_singleton]
          omega

/-- What the header lines say, and what is behind the empty line; `none` if one is broken. -/
def readHeader (text : Bytes) (said : Option (Bytes × Option Bytes)) :
    Option (Option (Bytes × Option Bytes) × Bytes) :=
  match h : nextLine text with
  | .broken _ => none
  | .last rest => some (said, rest)
  | .line said' _ rest =>
      have _hless : rest.length < text.length := (nextLine_length h).2
      readHeader rest (said'.or said)
termination_by text.length

/-- What is left of a part in the buffer. -/
def rewriteHeader (text : Bytes) : Bytes :=
  match h : nextLine text with
  | .broken left => left
  | .last _ => text
  | .line _ left rest =>
      have _hless : rest.length < text.length := (nextLine_length h).2
      left ++ rewriteHeader rest
termination_by text.length

/-- A broken header line leaves as much in the buffer. -/
theorem nextLine_broken {text left : Bytes} (h : nextLine text = .broken left) :
    left.length = text.length := by
  unfold nextLine at h
  rcases findIdx_eq text 10 with ⟨-, hnil⟩ | ⟨more, -, hmore, htext⟩
  · rw [hnil] at h
    cases h
    rfl
  · rw [hmore] at h
    have htotal := congrArg List.length htext
    simp only at h
    split at h
    · cases h
      rfl
    · split at h
      · cases h
      · split at h
        · cases h
          rw [List.length_append, length_rewriteLine, htotal, List.length_append]
        · cases h

theorem header_induction {P : Bytes → Prop} (broken : ∀ text left, nextLine text = .broken left → P text)
    (last : ∀ text rest, nextLine text = .last rest → P text)
    (line : ∀ text said left rest, nextLine text = .line said left rest → P rest → P text)
    (text : Bytes) : P text := by
  fun_induction rewriteHeader text with
  | case1 text left h => exact broken text left h
  | case2 text rest h => exact last text rest h
  | case3 text said left rest h hless ih => exact line text said left rest h ih

section
variable {text left rest : Bytes} {said said' : Option (Bytes × Option Bytes)}

theorem readHeader_broken (h : nextLine text = .broken left) : readHeader text said = none := by
  rw [readHeader]
  split
  · rfl
  · next h' =>
      rw [h] at h'
      cases h'
  · next h' =>
      rw [h] at h'
      cases h'

theorem readHeader_last (h : nextLine text = .last rest) : readHeader text said = some (said, rest) := by
  rw [readHeader]
  split
  · next h' =>
      rw [h] at h'
      cases h'
  · next h' =>
      rw [h] at h'
      cases h'
      rfl
  · next h' =>
      rw [h] at h'
      cases h'

theorem readHeader_line (h : nextLine text = .line said' left rest) :
    readHeader text said = readHeader rest (said'.or said) := by
  rw [readHeader]
  split
  · next h' =>
      rw [h] at h'
      cases h'
  · next h' =>
      rw [h] at h'
      cases h'
  · next h' =>
      rw [h] at h'
      cases h'
      rfl

theorem rewriteHeader_broken (h : nextLine text = .broken left) : rewriteHeader text = left := by
  rw [rewriteHeader]
  split
  · next h' =>
      rw [h] at h'
      cases h'
      rfl
  · next h' =>
      rw [h] at h'
      cases h'
  · next h' =>
      rw [h] at h'
      cases h'

theorem rewriteHeader_last (h : nextLine text = .last rest) : rewriteHeader text = text := by
  rw [rewriteHeader]
  split
  · next h' =>
      rw [h] at h'
      cases h'
  · rfl
  · next h' =>
      rw [h] at h'
      cases h'

theorem rewriteHeader_line (h : nextLine text = .line said' left rest) :
    rewriteHeader text = left ++ rewriteHeader rest := by
  rw [rewriteHeader]
  split
  · next h' =>
      rw [h] at h'
      cases h'
  · next h' =>
      rw [h] at h'
      cases h'
  · next h' =>
      rw [h] at h'
      cases h'
      rfl

end

theorem length_rewriteHeader (text : Bytes) : (rewriteHeader text).length = text.length := by
  induction text using header_induction with
  | broken text left h => rw [rewriteHeader_broken h, nextLine_broken h]
  | last text rest h => rw [rewriteHeader_last h]
  | line text said left rest h ih =>
      rw [rewriteHeader_line h, List.length_append, ih, (nextLine_length h).1]

section
variable {entry : View} {before behind : Bytes}

theorem headerLoop_next (behind : Bytes) (fuel : ℕ) {done text : Bytes}
    {attributes : Option ContentDispositionAttributes} {said : Option (Bytes × Option Bytes)}
    (hat : entry.At before (done ++ text)) (hheld : Held before done attributes said) :
    match nextLine text with
    | .broken left =>
        headerLoop entry (fuel + 1) done.length attributes (before ++ (done ++ text) ++ behind) =
          .error (.err .invalidMultiPartEncoding) (before ++ (done ++ left) ++ behind)
    | .last rest =>
        text = [13, 10] ++ rest ∧
          headerLoop entry (fuel + 1) done.length attributes (before ++ (done ++ text) ++ behind) =
            .ok ((done ++ [13, 10]).length, attributes) (before ++ (done ++ text) ++ behind)
    | .line said' left rest =>
        ∃ attributes', Held before (done ++ left) attributes' (said'.or said) ∧
          headerLoop entry (fuel + 1) done.length attributes (before ++ (done ++ text) ++ behind) =
            headerLoop entry fuel (done ++ left).length attributes'
              (before ++ (done ++ left ++ rest) ++ behind) := by
  rw [headerLoop, bind_ok (hat.bytes behind)]
  unfold indexOfScalarPos
  rw [List.drop_left' rfl]
  rcases findIdx_eq text 10 with ⟨hnone, hnil⟩ | ⟨rest, hsome, hrest, htext⟩
  · rw [hnone, nextLine, hnil]
    rfl
  · generalize hline : text.takeWhile (· ≠ 10) = line at hsome htext
    have hlineAt : entry.At before (done ++ line ++ 10 :: rest) := by
      rw [List.append_assoc, ← htext]
      exact hat
    have hbuffer : before ++ (done ++ text) ++ behind = before ++ done ++ line ++ (10 :: rest ++ behind) := by
      rw [htext]
      simp only [List.append_assoc]
    obtain ⟨view, hslice, hview⟩ := hlineAt.slice (before ++ (done ++ text) ++ behind)
    simp only [hsome, Option.map_some]
    rw [bind_ok hslice]
    rcases List.eq_nil_or_concat line with rfl | ⟨lead, b, hlead⟩
    · have hnext : nextLine text = .broken text := by
        rw [nextLine, hrest, hline]
        rfl
      have hlen : view.len = 0 := hview.len
      rw [hnext, if_pos hlen]
      rfl
    · rw [List.concat_eq_append] at hlead
      subst hlead
      have hlen : view.len = lead.length + 1 := hview.len.trans List.length_append
      have hend : View.minus view.len 1 (before ++ (done ++ text) ++ behind) =
          .ok lead.length (before ++ (done ++ text) ++ behind) := by
        rw [View.minus_ok (by omega), hlen, Nat.add_sub_cancel]
      have hload : view.load lead.length (before ++ (done ++ text) ++ behind) =
          .ok b (before ++ (done ++ text) ++ behind) := by
        rw [hbuffer]
        refine hview.load _ ?_
        rw [List.getElem?_append_right le_rfl, Nat.sub_self]
        rfl
      rw [if_neg (by omega), bind_ok hend, bind_ok hload]
      by_cases hb : b = 13
      · subst hb
        rw [if_neg (not_not.mpr rfl)]
        have hlast : ¬(lead ++ [13]).getLast? ≠ some 13 := not_not.mpr List.getLast?_concat
        cases lead with
        | nil =>
            have hnext : nextLine text = .last rest := by
              rw [nextLine, hrest, hline]
              rfl
            have hone : view.len = 1 := hlen
            rw [hnext, if_pos hone]
            have hpos : (done ++ [13, 10]).length = done.length + ([] ++ [13]).length + 1 := List.length_append
            rw [hpos]
            exact ⟨htext, rfl⟩
        | cons c lead =>
            have hmore : ¬c :: lead ++ [13] = [13] := by simp
            have hone : ¬view.len = 1 := by
              rw [hlen, List.length_cons]
              omega
            rw [if_neg hone, hbuffer]
            have hdisposition := dispositionLine_eq hview List.getLast?_concat hheld (10 :: rest ++ behind)
            have hnext : nextLine text =
                match readLine (c :: lead ++ [13]) with
                | none => .broken (rewriteLine (c :: lead ++ [13]) ++ 10 :: rest)
                | some said => .line said (rewriteLine (c :: lead ++ [13]) ++ [10]) rest := by
              rw [nextLine, hrest, hline]
              simp only
              rw [if_neg hlast, if_neg hmore]
            rw [hnext]
            cases hsaid : readLine (c :: lead ++ [13]) with
            | none =>
                rw [hsaid] at hdisposition
                simp only at hdisposition ⊢
                rw [bind_error hdisposition]
                simp only [List.append_assoc]
            | some said' =>
                rw [hsaid] at hdisposition
                obtain ⟨attributes', hrun, hheld'⟩ := hdisposition
                simp only
                refine ⟨attributes', ?_, ?_⟩
                · rw [← List.append_assoc done]
                  exact hheld'.append [10]
                · rw [bind_ok hrun]
                  have hpos : (done ++ (rewriteLine (c :: lead ++ [13]) ++ [10])).length =
                      done.length + (c :: lead ++ [13]).length + 1 := by
                    rw [List.length_append, List.length_append, length_rewriteLine, List.length_singleton,
                      Nat.add_assoc]
                  rw [hpos]
                  simp only [List.append_assoc, List.cons_append, List.nil_append]
      · have hnext : nextLine text = .broken text := by
          have hlast : (lead ++ [b]).getLast? ≠ some 13 := by
            rw [List.getLast?_concat]
            exact fun h => hb (Option.some.inj h)
          rw [nextLine, hrest, hline]
          simp only
          rw [if_pos hlast]
        rw [hnext, if_pos hb]
        rfl

/-- **The loop over the header lines**: it reads what `readHeader` reads, and leaves what
`rewriteHeader` leaves. -/
theorem headerLoop_eq (behind : Bytes) (text : Bytes) : ∀ {fuel : ℕ} {done : Bytes}
    {attributes : Option ContentDispositionAttributes} {said : Option (Bytes × Option Bytes)},
    text.length < fuel → entry.At before (done ++ text) → Held before done attributes said →
    match readHeader text said with
    | none =>
        headerLoop entry fuel done.length attributes (before ++ (done ++ text) ++ behind) =
          .error (.err .invalidMultiPartEncoding) (before ++ (done ++ rewriteHeader text) ++ behind)
    | some (said', rest) =>
        ∃ lines attributes', rewriteHeader text = lines ++ rest ∧
          Held before (done ++ lines) attributes' said' ∧
          headerLoop entry fuel done.length attributes (before ++ (done ++ text) ++ behind) =
            .ok ((done ++ lines).length, attributes') (before ++ (done ++ rewriteHeader text) ++ behind) := by
  induction text using header_induction with
  | broken text left h =>
      intro fuel done attributes said hfuel hat hheld
      obtain ⟨fuel, rfl⟩ := Nat.exists_eq_succ_of_ne_zero (Nat.ne_of_gt (Nat.zero_lt_of_lt hfuel))
      have hnext := headerLoop_next behind fuel hat hheld
      rw [h] at hnext
      rw [readHeader_broken h, rewriteHeader_broken h]
      exact hnext
  | last text rest h =>
      intro fuel done attributes said hfuel hat hheld
      obtain ⟨fuel, rfl⟩ := Nat.exists_eq_succ_of_ne_zero (Nat.ne_of_gt (Nat.zero_lt_of_lt hfuel))
      have hnext := headerLoop_next behind fuel hat hheld
      rw [h] at hnext
      rw [readHeader_last h, rewriteHeader_last h]
      exact ⟨[13, 10], attributes, hnext.1, hheld.append _, hnext.2⟩
  | line text said' left rest h ih =>
      intro fuel done attributes said hfuel hat hheld
      obtain ⟨fuel, rfl⟩ := Nat.exists_eq_succ_of_ne_zero (Nat.ne_of_gt (Nat.zero_lt_of_lt hfuel))
      obtain ⟨hlength, hless⟩ := nextLine_length h
      have hnext := headerLoop_next behind fuel hat hheld
      rw [h] at hnext
      obtain ⟨attributes', hheld', hrun⟩ := hnext
      have hat' : entry.At before (done ++ left ++ rest) := by
        refine hat.congr ?_
        rw [List.append_assoc, List.length_append, List.length_append, List.length_append, hlength]
      have hrest := ih (show rest.length < fuel by omega) hat' hheld'
      rw [← hrun] at hrest
      rw [readHeader_line h, rewriteHeader_line h]
      cases hread : readHeader rest (said'.or said) with
      | none =>
          rw [hread] at hrest
          simp only [List.append_assoc] at hrest ⊢
          exact hrest
      | some read =>
          rw [hread] at hrest
          obtain ⟨lines, attributes'', hlines, hheld'', hrun'⟩ := hrest
          refine ⟨left ++ lines, attributes'', by rw [hlines, List.append_assoc], ?_, ?_⟩
          · rw [← List.append_assoc]
            exact hheld''
          · simp only [List.append_assoc] at hrun' ⊢
            exact hrun'

/-! ### The part -/

/-- What a part gives the map: its name, and its value with its file name. -/
def readEntry (text : Bytes) : Option (Bytes × MultipartEntry) :=
  match readHeader text none with
  | none => none
  | some (said, rest) =>
      if rest.length < 2 ∨ rest.drop (rest.length - 2) ≠ [13, 10] then none
      else said.map fun (name, filename) => (name, ⟨rest.take (rest.length - 2), filename⟩)

/-- **A part**: what it gives the map, and what it leaves in the buffer. -/
theorem parseMultiPartEntry_eq {text : Bytes} (hat : entry.At before text) (behind : Bytes) :
    match readEntry text with
    | none =>
        parseMultiPartEntry entry (before ++ text ++ behind) =
          .error (.err .invalidMultiPartEncoding) (before ++ rewriteHeader text ++ behind)
    | some e =>
        ∃ field, parseMultiPartEntry entry (before ++ text ++ behind) =
            .ok field (before ++ rewriteHeader text ++ behind) ∧
          Request.fieldEntry field (before ++ rewriteHeader text ++ behind) =
            .ok e (before ++ rewriteHeader text ++ behind) := by
  have hfuel : text.length < entry.len + 1 := by
    rw [hat.len]
    exact Nat.lt_succ_self _
  have hloop := @headerLoop_eq entry before behind text _ [] none none hfuel hat trivial
  simp only [List.nil_append, List.length_nil] at hloop
  unfold parseMultiPartEntry readEntry
  cases hread : readHeader text none with
  | none =>
      rw [hread] at hloop
      simp only at hloop ⊢
      rw [bind_error hloop]
  | some read =>
      obtain ⟨said, rest⟩ := read
      rw [hread] at hloop
      obtain ⟨lines, attributes, hlines, hheld, hrun⟩ := hloop
      rw [bind_ok hrun]
      have hat' : entry.At before (lines ++ rest ++ []) := by
        rw [List.append_nil, ← hlines]
        exact hat.congr (length_rewriteHeader text)
      have hlen : entry.len = lines.length + rest.length := by
        rw [hat'.len, List.append_nil, List.length_append]
      obtain ⟨value, hslice, hvalue⟩ := hat'.slice (before ++ rewriteHeader text ++ behind)
      rw [← hlen] at hslice
      simp only
      rw [bind_ok hslice]
      by_cases hshort : rest.length < 2
      · have hshort' : value.len < 2 := hvalue.len.trans_lt hshort
        rw [if_pos hshort', if_pos (.inl hshort)]
        rfl
      · obtain ⟨b, c, hbc⟩ : ∃ b c, rest.drop (rest.length - 2) = [b, c] := by
          refine List.length_eq_two.mp ?_
          rw [List.length_drop]
          omega
        generalize hmiddle : rest.take (rest.length - 2) = middle
        have hrest : middle ++ [b, c] = rest := by rw [← hmiddle, ← hbc, List.take_append_drop]
        have hvalueLen : value.len = middle.length + 2 := by
          rw [hvalue.len, ← hrest, List.length_append]
          rfl
        have hbuffer : before ++ rewriteHeader text ++ behind = before ++ lines ++ rest ++ behind := by
          rw [hlines]
          simp only [List.append_assoc]
        have hminus (k : ℕ) (hk : k ≤ 2) : View.minus value.len k (before ++ rewriteHeader text ++ behind) =
            .ok (middle.length + (2 - k)) (before ++ rewriteHeader text ++ behind) := by
          rw [View.minus_ok (by omega), hvalueLen, Nat.add_sub_assoc hk]
        have hload (k : ℕ) (d : UInt8) (hd : [b, c][k]? = some d) :
            value.load (middle.length + k) (before ++ rewriteHeader text ++ behind) =
              .ok d (before ++ rewriteHeader text ++ behind) := by
          rw [hbuffer]
          refine hvalue.load behind ?_
          rw [← hrest, List.getElem?_append_right (Nat.le_add_right _ _), Nat.add_sub_cancel_left, hd]
        have hlong : ¬value.len < 2 := by
          rw [hvalue.len]
          exact hshort
        rw [if_neg hlong, bind_ok (hminus 2 le_rfl), bind_ok (hminus 1 one_le_two),
          bind_ok (hload 0 b rfl), bind_ok (hload 1 c rfl)]
        by_cases hcrlf : b = 13 ∧ c = 10
        · obtain ⟨rfl, rfl⟩ := hcrlf
          have hwhole : ¬(rest.length < 2 ∨ rest.drop (rest.length - 2) ≠ [13, 10]) := by
            rw [hbc]
            simpa using hshort
          rw [if_neg hwhole, if_neg (by decide)]
          match attributes, said with
          | none, none => rfl
          | some attributes, some (name, filename) =>
              have hvalueAt : value.At (before ++ lines) ([] ++ middle ++ [13, 10]) := hrest ▸ hvalue
              obtain ⟨cut, hcut, hcutAt⟩ := hvalueAt.slice (before ++ rewriteHeader text ++ behind)
              rw [List.length_nil, Nat.zero_add] at hcut
              simp only [Option.map_some]
              rw [bind_ok (hminus 2 le_rfl), Nat.sub_self, Nat.add_zero, bind_ok hcut]
              refine ⟨⟨attributes.name, cut, attributes.filename⟩, rfl, ?_⟩
              have hname := hheld.1.bytes (rest ++ behind)
              have hcutBytes := hcutAt.bytes ([13, 10] ++ behind)
              have hwhole : before ++ rewriteHeader text ++ behind =
                  before ++ lines ++ (rest ++ behind) := by
                rw [hlines]
                simp only [List.append_assoc]
              have hwhole' : before ++ lines ++ [] ++ middle ++ ([13, 10] ++ behind) =
                  before ++ rewriteHeader text ++ behind := by
                rw [hlines, ← hrest]
                simp only [List.append_assoc, List.nil_append]
              rw [← hwhole] at hname
              rw [hwhole'] at hcutBytes
              unfold Request.fieldEntry
              simp only
              rw [bind_ok hname, bind_ok hcutBytes]
              match hviewed : attributes.filename, filename with
              | none, none => rfl
              | some view, some filename =>
                  have hfilename := hheld.2
                  rw [hviewed] at hfilename
                  have hbytes := hfilename.bytes (rest ++ behind)
                  rw [← hwhole] at hbytes
                  simp only
                  rw [bind_ok hbytes]
                  rfl
              | none, some _ | some _, none =>
                  have hfilename := hheld.2
                  rw [hviewed] at hfilename
                  exact absurd hfilename id
        · have hbroken : rest.length < 2 ∨ rest.drop (rest.length - 2) ≠ [13, 10] := by
            refine .inr fun h => hcrlf ?_
            rw [hbc] at h
            simpa using h
          have hends : b ≠ 13 ∨ c ≠ 10 := not_and_or.mp hcrlf
          rw [if_pos hbroken, if_pos hends]
          rfl

end

end MultipartForm
end Dusty
