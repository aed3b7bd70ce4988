import Dusty.PartHeader
import Dusty.SplitText

/-! # The parts of a form

What the loop of `multiFormData` reads of the pieces between the delimiters (`readPieces`), and what it
leaves of them in the buffer (`rewritePieces`). -/

namespace Dusty

open Act

namespace MultipartForm

/-- What a piece is: the end of the form, an error, with what is left of the piece, or a part. -/
inductive Piece where
  | last
  | broken (e : Error) (left : Bytes)
  | part (name : Bytes) (entry : MultipartEntry) (left : Bytes)

/-- A piece; there may be no room for one more part. -/
def readPiece (full : Bool) (text : Bytes) : Piece :=
  if text = ascii "--\r\n" then .last
  else if full then .broken .tooManyMultiFormFields text
  else if text.take 2 ≠ [13, 10] then .broken .invalidMultiPartEncoding text
  else
    match readEntry (text.drop 2) with
    | none => .broken .invalidMultiPartEncoding ([13, 10] ++ rewriteHeader (text.drop 2))
    | some (name, entry) => .part name entry ([13, 10] ++ rewriteHeader (text.drop 2))

theorem length_readPiece {full : Bool} {text name left : Bytes} {entry : MultipartEntry}
    (h : readPiece full text = .part name entry left) : left.length = text.length := by
  unfold readPiece at h
  split at h
  · cases h
  · split at h
    · cases h
    · split at h
      · cases h
      · next hcrlf =>
          split at h
          · cases h
          · cases h
            rw [List.length_append, length_rewriteHeader, ← List.length_append]
            conv_rhs => rw [← List.take_append_drop 2 text, not_not.mp hcrlf]

theorem length_readPiece_broken {full : Bool} {text left : Bytes} {e : Error}
    (h : readPiece full text = .broken e left) : left.length = text.length := by
  unfold readPiece at h
  split at h
  · cases h
  · split at h
    · cases h
      rfl
    · split at h
      · cases h
        rfl
      · next hcrlf =>
          split at h
          · cases h
            rw [List.length_append, length_rewriteHeader, ← List.length_append]
            conv_rhs => rw [← List.take_append_drop 2 text, not_not.mp hcrlf]
          · cases h

/-- The parts up to the end of the form or to an error, and the error. -/
def readPieces (limit : ℕ) : List Bytes → MultipartMap → Option Error × MultipartMap
  | [], m => (none, m)
  | text :: rest, m =>
      match readPiece (decide (limit ≤ m.count)) text with
      | .last => (none, m)
      | .broken e _ => (some e, m)
      | .part name entry _ => readPieces limit rest (m.insert name entry)

/-- What is left of the pieces in the buffer. -/
def rewritePieces (limit : ℕ) : List Bytes → MultipartMap → List Bytes
  | [], _ => []
  | text :: rest, m =>
      match readPiece (decide (limit ≤ m.count)) text with
      | .last => text :: rest
      | .broken _ left => left :: rest
      | .part name entry left => left :: rewritePieces limit rest (m.insert name entry)

/-- The form in a body: it begins with a delimiter. -/
def readForm (limit : ℕ) : List Bytes → MultipartMap → Option Error × MultipartMap
  | [], m => (none, m)
  | first :: rest, m => if first = [] then readPieces limit rest m else (some .invalidMultiPartEncoding, m)

/-- What is left of the body. -/
def rewriteForm (limit : ℕ) : List Bytes → MultipartMap → List Bytes
  | [], _ => []
  | first :: rest, m => if first = [] then first :: rewritePieces limit rest m else first :: rest

theorem rewritePieces_eq_nil {limit : ℕ} {pieces : List Bytes} {m : MultipartMap} :
    rewritePieces limit pieces m = [] ↔ pieces = [] := by
  cases pieces with
  | nil => exact iff_of_true rfl rfl
  | cons text rest =>
      rw [rewritePieces]
      split <;> simp

end MultipartForm

namespace Request

open MultipartForm

/-- A request while its body is parsed. -/
def parsing (req : Request) (buffer : Bytes) (mfd : MultipartMap) : Request :=
  { req with cachedBody := some buffer, mfd := mfd }

section
variable {req : Request} {m : MultipartMap}

theorem parsing_self {body : Bytes} (h : req.cachedBody = some body) : req.parsing body req.mfd = req := by
  rw [parsing, ← h]

theorem onBody_ok {α : Type} {x : Act Bytes α} {a : α} {buffer buffer' : Bytes}
    (h : x buffer = .ok a buffer') :
    onBody x (req.parsing buffer m) = .ok a (req.parsing buffer' m) := by
  have hrun : x ((req.parsing buffer m).cachedBody.getD []) = .ok a buffer' := h
  unfold onBody zoom
  simp only [hrun]
  rfl

theorem onBody_error {α : Type} {x : Act Bytes α} {e : Fault} {buffer buffer' : Bytes}
    (h : x buffer = .error e buffer') :
    onBody x (req.parsing buffer m) = .error e (req.parsing buffer' m) := by
  have hrun : x ((req.parsing buffer m).cachedBody.getD []) = .error e buffer' := h
  unfold onBody zoom
  simp only [hrun]
  rfl

/-- **The body of the loop**: a piece is read as `readPiece` reads it. -/
theorem takePart_eq (req : Request) (m : MultipartMap) {entry : View} {before text : Bytes} (hat : entry.At before text) (behind : Bytes) :
    match readPiece (decide (req.config.maxMultiformCount ≤ m.count)) text with
    | .last =>
        takePart entry (req.parsing (before ++ text ++ behind) m) =
          .ok false (req.parsing (before ++ text ++ behind) m)
    | .broken e left =>
        takePart entry (req.parsing (before ++ text ++ behind) m) =
          .error (.err e) (req.parsing (before ++ left ++ behind) m)
    | .part name value left =>
        takePart entry (req.parsing (before ++ text ++ behind) m) =
          .ok true (req.parsing (before ++ left ++ behind) (m.insert name value)) := by
  unfold takePart readPiece
  rw [bind_ok (onBody_ok (hat.bytes behind))]
  by_cases hlast : text = ascii "--\r\n"
  · rw [if_pos hlast, if_pos hlast]
    rfl
  rw [if_neg hlast, if_neg hlast, bind_ok (get_run _)]
  by_cases hfull : req.config.maxMultiformCount ≤ m.count
  · have hstop : (req.parsing (before ++ text ++ behind) m).config.maxMultiformCount ≤
        (req.parsing (before ++ text ++ behind) m).mfd.count := hfull
    rw [if_pos (decide_eq_true hfull), if_pos hstop]
    rfl
  have hroom : ¬(req.parsing (before ++ text ++ behind) m).config.maxMultiformCount ≤
      (req.parsing (before ++ text ++ behind) m).mfd.count := hfull
  rw [if_neg (by simpa using hfull), if_neg hroom]
  match text, hat with
  | [], hat =>
      have hshort : entry.len < 2 := hat.len.trans_lt (by decide)
      rw [if_pos hshort]
      rfl
  | [b], hat =>
      have hshort : entry.len < 2 := hat.len.trans_lt (Nat.lt_succ_self 1)
      have hbroken : [b].take 2 ≠ [13, 10] := by simp
      rw [if_pos hshort, if_pos hbroken]
      rfl
  | b :: c :: rest, hat =>
      have hlen : entry.len = rest.length + 2 := hat.len
      have hlong : ¬entry.len < 2 := by omega
      rw [if_neg hlong, bind_ok (onBody_ok (hat.load behind (i := 0) rfl)),
        bind_ok (onBody_ok (hat.load behind (i := 1) rfl))]
      by_cases hcrlf : b = 13 ∧ c = 10
      · obtain ⟨rfl, rfl⟩ := hcrlf
        have hrestAt : entry.At before ([13, 10] ++ rest ++ []) := by
          rw [List.append_nil]
          exact hat
        obtain ⟨view, hslice, hview⟩ := hrestAt.slice (req.parsing (before ++ 13 :: 10 :: rest ++ behind) m)
        have hend : ([13, 10] : Bytes).length + rest.length = entry.len := by
          rw [hlen, Nat.add_comm]
          rfl
        rw [hend, show ([13, 10] : Bytes).length = 2 from rfl] at hslice
        have hparse := parseMultiPartEntry_eq hview behind
        have hbuffer : before ++ 13 :: 10 :: rest ++ behind = before ++ [13, 10] ++ rest ++ behind := by
          simp only [List.append_assoc, List.cons_append, List.nil_append]
        rw [if_neg (by simp), if_neg (by simp), bind_ok hslice, hbuffer,
          show (13 :: 10 :: rest : Bytes).drop 2 = rest from rfl]
        cases hentry : readEntry rest with
        | none =>
            rw [hentry] at hparse
            simp only at hparse ⊢
            rw [bind_error (onBody_error hparse), List.append_assoc before]
        | some e =>
            rw [hentry] at hparse
            obtain ⟨field, hrun, hfield⟩ := hparse
            simp only
            rw [bind_ok (onBody_ok hrun), bind_ok (onBody_ok hfield), List.append_assoc before]
            rfl
      · have hends : b ≠ 13 ∨ c ≠ 10 := not_and_or.mp hcrlf
        have hbroken : (b :: c :: rest).take 2 ≠ [13, 10] := fun h => hcrlf (by simpa using h)
        rw [if_pos hends, if_pos hbroken]
        rfl

/-- The next piece, and where the one behind it begins. -/
theorem nextPiece_eq (d before text : Bytes) :
    match indexOfSlice d text with
    | none =>
        ∃ view, View.At view before text ∧
          nextPiece d before.length (before ++ text) = .ok (view, none) (before ++ text)
    | some n =>
        ∃ view, View.At view before (text.take n) ∧
          nextPiece d before.length (before ++ text) =
            .ok (view, some (before ++ text.take n ++ d).length) (before ++ text) := by
  have hwhole (parts : Bytes) (h : before ++ text = parts) :
      View.At ⟨0, (before ++ text).length⟩ [] parts := by rw [h]; rfl
  unfold nextPiece
  rw [bind_ok (get_run _), indexOfPos, List.drop_left' rfl]
  cases hindex : indexOfSlice d text with
  | none =>
      obtain ⟨view, hslice, hview⟩ := (hwhole (before ++ text ++ []) (List.append_nil _).symm).slice
        (before ++ text)
      rw [← List.length_append] at hslice
      simp only [Option.map_none]
      rw [bind_ok hslice]
      exact ⟨view, hview, rfl⟩
  | some n =>
      obtain ⟨rest, htext, hlength⟩ := indexOfSlice_some hindex
      have hparts : before ++ text = before ++ text.take n ++ (d ++ rest) := by
        rw [List.append_assoc, ← List.append_assoc _ d, ← htext]
      obtain ⟨view, hslice, hview⟩ := (hwhole _ hparts).slice (before ++ text)
      rw [hlength] at hslice
      simp only [Option.map_some]
      rw [bind_ok hslice]
      refine ⟨view, hview, ?_⟩
      rw [List.length_append, List.length_append, hlength]
      rfl

/-- How the parsing ends: with what is left of the body, the map and the error. -/
def parsed (req : Request) (buffer : Bytes) : Option Error × MultipartMap → EStateM.Result Fault Request Unit
  | (none, m) => .ok () (req.parsing buffer m)
  | (some e, m) => .error (.err e) (req.parsing buffer m)

theorem parseParts_none (d : Bytes) (fuel : ℕ) : parseParts d fuel none = pure () := by
  cases fuel <;> rfl

/-- **The loop over the pieces**: it reads what `readPieces` reads, and leaves what `rewritePieces`
leaves. -/
theorem parseParts_eq {d : Bytes} (hd : d ≠ []) (text : Bytes) : ∀ {fuel : ℕ} {before : Bytes}
    {m : MultipartMap}, text.length < fuel →
    parseParts d fuel (some before.length) (req.parsing (before ++ text) m) =
      req.parsed
        (before ++ d.intercalate (rewritePieces req.config.maxMultiformCount (splitSequence d hd text) m))
        (readPieces req.config.maxMultiformCount (splitSequence d hd text) m) := by
  fun_induction splitSequence d hd text with
  | case1 text hindex =>
      intro fuel before m hfuel
      obtain ⟨fuel, rfl⟩ := Nat.exists_eq_succ_of_ne_zero (Nat.ne_of_gt (Nat.zero_lt_of_lt hfuel))
      have hnext := nextPiece_eq d before text
      rw [hindex] at hnext
      obtain ⟨view, hview, hrun⟩ := hnext
      have htake := takePart_eq req m hview []
      rw [List.append_nil] at htake
      rw [parseParts, bind_ok (onBody_ok hrun)]
      simp only
      rw [readPieces, rewritePieces]
      cases hpiece : readPiece (decide (req.config.maxMultiformCount ≤ m.count)) text with
      | last =>
          rw [hpiece] at htake
          simp only at htake
          rw [bind_ok htake, List.intercalate_singleton]
          rfl
      | broken e left =>
          rw [hpiece] at htake
          simp only at htake
          rw [bind_error htake, List.intercalate_singleton, List.append_nil]
          rfl
      | part name value left =>
          rw [hpiece] at htake
          simp only at htake
          rw [bind_ok htake, if_pos rfl, List.append_nil]
          show _ = req.parsed (before ++ d.intercalate [left]) (none, m.insert name value)
          rw [List.intercalate_singleton, parseParts_none]
          rfl
  | case2 text n hindex hless ih =>
      intro fuel before m hfuel
      obtain ⟨fuel, rfl⟩ := Nat.exists_eq_succ_of_ne_zero (Nat.ne_of_gt (Nat.zero_lt_of_lt hfuel))
      have hnext := nextPiece_eq d before text
      rw [hindex] at hnext
      obtain ⟨view, hview, hrun⟩ := hnext
      obtain ⟨rest, htext, hlength⟩ := indexOfSlice_some hindex
      have hrest : text.drop (n + d.length) = rest := by
        conv_lhs => rw [htext]
        exact List.drop_left' (by rw [List.length_append, hlength])
      rw [hrest] at ih hless ⊢
      have hjoin : d.intercalate (splitSequence d hd rest) = rest := intercalate_splitSequence rest
      have htake := takePart_eq req m hview (d ++ rest)
      rw [List.append_assoc before, ← List.append_assoc _ d, ← htext] at htake
      rw [parseParts, bind_ok (onBody_ok hrun)]
      simp only
      rw [readPieces, rewritePieces]
      cases hpiece : readPiece (decide (req.config.maxMultiformCount ≤ m.count)) (text.take n) with
      | last =>
          rw [hpiece] at htake
          simp only at htake
          rw [bind_ok htake, List.intercalate_cons_of_ne_nil (splitSequence_ne_nil _), hjoin,
            ← htext]
          rfl
      | broken e left =>
          rw [hpiece] at htake
          simp only at htake
          rw [bind_error htake, List.intercalate_cons_of_ne_nil (splitSequence_ne_nil _), hjoin]
          simp only [List.append_assoc]
          rfl
      | part name value left =>
          rw [hpiece] at htake
          simp only at htake
          have hleft : left.length = n := (length_readPiece hpiece).trans hlength
          have hpos : (before ++ text.take n ++ d).length = (before ++ left ++ d).length := by
            simp only [List.length_append, hlength, hleft]
          have hne : rewritePieces req.config.maxMultiformCount (splitSequence d hd rest) (m.insert name value) ≠ [] :=
            fun h => splitSequence_ne_nil rest (rewritePieces_eq_nil.mp h)
          have hnextRun := @ih fuel (before ++ left ++ d) (m.insert name value) (by omega)
          rw [bind_ok htake, if_pos rfl, hpos, List.intercalate_cons_of_ne_nil hne]
          simp only [List.append_assoc] at hnextRun ⊢
          exact hnextRun

/-- **What `multiFormData` does with a body.** -/
theorem parseMultipart_eq {d body : Bytes} (hd : d ≠ []) (hbody : req.cachedBody = some body) :
    parseMultipart d req =
      req.parsed
        (d.intercalate (rewriteForm req.config.maxMultiformCount (splitSequence d hd body) req.mfd))
        (readForm req.config.maxMultiformCount (splitSequence d hd body) req.mfd) := by
  have hself : req.parsing body req.mfd = req := parsing_self hbody
  have hnext := nextPiece_eq d [] body
  rw [List.nil_append, List.length_nil] at hnext
  unfold parseMultipart
  rw [bind_ok (get_run req), hbody]
  cases hindex : indexOfSlice d body with
  | none =>
      rw [hindex] at hnext
      obtain ⟨view, hview, hrun⟩ := hnext
      have hpiece := @onBody_ok req req.mfd _ _ _ _ _ hrun
      rw [hself] at hpiece
      rw [bind_ok hpiece, splitSequence_none hindex]
      simp only
      rw [readForm, rewriteForm, hview.len]
      by_cases hempty : body = []
      · rw [if_pos hempty, if_pos hempty, if_neg (by rw [hempty]; decide), parseParts_none]
        show _ = req.parsed (d.intercalate [body]) (none, req.mfd)
        rw [List.intercalate_singleton, parsed, hself]
        rfl
      · rw [if_neg hempty, if_neg hempty, if_pos (fun h => hempty (List.length_eq_zero_iff.mp h)),
          List.intercalate_singleton]
        show _ = EStateM.Result.error _ (req.parsing body req.mfd)
        rw [hself]
        rfl
  | some n =>
      rw [hindex] at hnext
      obtain ⟨view, hview, hrun⟩ := hnext
      obtain ⟨rest, htext, hlength⟩ := indexOfSlice_some hindex
      have hrest : body.drop (n + d.length) = rest := by
        conv_lhs => rw [htext]
        exact List.drop_left' (by rw [List.length_append, hlength])
      have hpiece := @onBody_ok req req.mfd _ _ _ _ _ hrun
      rw [hself] at hpiece
      rw [bind_ok hpiece, splitSequence_some hindex, hrest]
      simp only
      rw [readForm, rewriteForm, hview.len]
      by_cases hempty : body.take n = []
      · rw [if_pos hempty, if_pos hempty, if_neg (by rw [hempty]; decide), hempty]
        have hless : rest.length < body.length + 1 := by
          have htotal := congrArg List.length htext
          rw [List.length_append, List.length_append] at htotal
          omega
        have hparts := @parseParts_eq req d hd rest _ d req.mfd hless
        have hbuffer : d ++ rest = body := by rw [htext, hempty, List.nil_append]
        have hne : rewritePieces req.config.maxMultiformCount (splitSequence d hd rest) req.mfd ≠ [] :=
          fun h => splitSequence_ne_nil rest (rewritePieces_eq_nil.mp h)
        rw [hbuffer, hself] at hparts
        rw [List.nil_append, List.intercalate_cons_of_ne_nil hne, List.nil_append]
        exact hparts
      · rw [if_neg hempty, if_neg hempty, if_pos (fun h => hempty (List.length_eq_zero_iff.mp h))]
        have hjoin : d.intercalate (body.take n :: splitSequence d hd rest) = body := by
          rw [List.intercalate_cons_of_ne_nil (splitSequence_ne_nil _), intercalate_splitSequence, ← htext]
        rw [hjoin]
        show _ = EStateM.Result.error _ (req.parsing body req.mfd)
        rw [hself]
        rfl

end

end Request
end Dusty
