import Dusty.Numerals

/-! # Event streams as a client reads them

The interpretation of an event stream in the HTML standard, on bytes: a line ends with a carriage
return, a line feed or both, a line that is not empty sets a field, and an empty line dispatches
the event, if there are data.  `decode_line` and `decode_blank` say what a line does; `decode_worth`
bounds what any bytes at all can bring into the data. -/

namespace Dusty
namespace EventSource

/-- A dispatched event. -/
structure Event where
  type : Bytes
  data : Bytes
  lastId : Bytes
deriving DecidableEq, Repr

/-- What the client has read: the line it is in, whether the byte before was a carriage return,
the buffers, and the reconnection time. -/
structure Decoder where
  line : Bytes := []
  afterCr : Bool := false
  type : Bytes := []
  data : Bytes := []
  lastId : Bytes := []
  retry : Option ℕ := none
deriving DecidableEq, Repr

/-- A value without the blank in front of it. -/
def stripBlank : Bytes → Bytes
  | 32 :: rest => rest
  | value => value

/-- The field name of a line. -/
def fieldName (line : Bytes) : Bytes := line.takeWhile (· != 58)

/-- The field value of a line: what follows the colon. -/
def fieldValue (line : Bytes) : Bytes := stripBlank ((line.dropWhile (· != 58)).drop 1)

namespace Decoder

/-- A field is processed. -/
def field (d : Decoder) (name value : Bytes) : Decoder :=
  if name = ascii "event" then { d with type := value }
  else if name = ascii "data" then { d with data := d.data ++ value ++ [10] }
  else if name = ascii "id" then if 0 ∈ value then d else { d with lastId := value }
  else if name = ascii "retry" then { d with retry := (readNat 10 value).or d.retry }
  else d

/-- The events of an empty line: one, unless there are no data. -/
def dispatched (d : Decoder) : List Event :=
  if d.data = [] then []
  else [{ type := if d.type = [] then ascii "message" else d.type
          data := d.data.dropLast
          lastId := d.lastId }]

/-- A line has come to its end. -/
def endLine (d : Decoder) : Decoder × List Event :=
  if d.line = [] then ({ d with type := [], data := [] }, d.dispatched)
  else ({ d with line := [] }.field (fieldName d.line) (fieldValue d.line), [])

/-- One byte. -/
def step (d : Decoder) (b : UInt8) : Decoder × List Event :=
  if b = 10 then
    if d.afterCr then ({ d with afterCr := false }, []) else d.endLine
  else if b = 13 then ({ d.endLine.1 with afterCr := true }, d.endLine.2)
  else ({ d with line := d.line ++ [b], afterCr := false }, [])

end Decoder

/-- What the client makes of bytes: its state behind them, and the events dispatched. -/
def decode (d : Decoder) : Bytes → Decoder × List Event
  | [] => (d, [])
  | b :: rest => ((decode (d.step b).1 rest).1, (d.step b).2 ++ (decode (d.step b).1 rest).2)

theorem decode_append (d : Decoder) (xs ys : Bytes) :
    decode d (xs ++ ys) =
      ((decode (decode d xs).1 ys).1, (decode d xs).2 ++ (decode (decode d xs).1 ys).2) := by
  induction xs generalizing d with
  | nil => rfl
  | cons b xs ih =>
      rw [List.cons_append, decode, ih, decode, List.append_assoc]

theorem decode_trans {d d₁ d₂ : Decoder} {xs ys : Bytes} {es fs : List Event}
    (h : decode d xs = (d₁, es)) (h' : decode d₁ ys = (d₂, fs)) :
    decode d (xs ++ ys) = (d₂, es ++ fs) := by
  rw [decode_append, h, h']

/-- Nothing is pending: the client is between two events. -/
structure Decoder.Between (d : Decoder) : Prop where
  line : d.line = []
  afterCr : d.afterCr = false
  type : d.type = []
  data : d.data = []

/-! ### Lines -/

/-- There is no line end in the text. -/
def OneLine (text : Bytes) : Prop := ∀ b ∈ text, b ≠ 13 ∧ b ≠ 10

theorem step_text (d : Decoder) {b : UInt8} (h : b ≠ 13 ∧ b ≠ 10) :
    d.step b = ({ d with line := d.line ++ [b], afterCr := false }, []) := by
  rw [Decoder.step, if_neg h.2, if_neg h.1]

theorem decode_text {d : Decoder} (hcr : d.afterCr = false) {text : Bytes} (h : OneLine text) :
    decode d text = ({ d with line := d.line ++ text }, []) := by
  induction text generalizing d with
  | nil => rw [decode, List.append_nil]
  | cons b text ih =>
      have hb := step_text d (h b List.mem_cons_self)
      have hrest := ih (d := (d.step b).1) (by rw [hb]) fun c hc => h c (List.mem_cons_of_mem b hc)
      rw [decode, hrest, hb]
      simp [List.append_assoc, hcr]

theorem fieldName_of {name rest : Bytes} (h : (58 : UInt8) ∉ name) :
    fieldName (name ++ 58 :: rest) = name := by
  unfold fieldName
  rw [List.takeWhile_append_of_pos]
  · simp
  · intro b hb
    have hne : b ≠ 58 := fun he => h (he ▸ hb)
    simpa using hne

theorem fieldValue_of {name value : Bytes} (h : (58 : UInt8) ∉ name) :
    fieldValue (name ++ 58 :: 32 :: value) = value := by
  unfold fieldValue
  rw [List.dropWhile_append_of_pos]
  · simp [stripBlank]
  · intro b hb
    have hne : b ≠ 58 := fun he => h (he ▸ hb)
    simpa using hne

theorem decode_lf {d : Decoder} (hcr : d.afterCr = false) : decode d [10] = d.endLine := by
  rw [decode, decode, Decoder.step, if_pos rfl, if_neg (by simp [hcr]), List.append_nil]

/-- **A line with a field.** -/
theorem decode_line {d : Decoder} (hline : d.line = []) (hcr : d.afterCr = false)
    {name value : Bytes} (hcolon : (58 : UInt8) ∉ name) (hname : OneLine name)
    (hvalue : OneLine value) :
    decode d (name ++ 58 :: 32 :: value ++ [10]) = (d.field name value, []) := by
  have htext : OneLine (name ++ 58 :: 32 :: value) := by
    intro b hb
    rcases List.mem_append.mp hb with hb | hb
    · exact hname b hb
    · rcases List.mem_cons.mp hb with rfl | hb
      · decide
      · rcases List.mem_cons.mp hb with rfl | hb
        · decide
        · exact hvalue b hb
  let v := { d with line := d.line ++ (name ++ 58 :: 32 :: value) }
  have hend : decode v [10] = (d.field name value, []) := by
    have hv : v.line = name ++ 58 :: 32 :: value := by simp [v, hline]
    have hne : ¬v.line = [] := by simp [hv]
    have hreset : { v with line := [] } = d := by
      rw [← hline]
    rw [decode_lf (d := v) hcr, Decoder.endLine, if_neg hne, hv, fieldName_of hcolon, fieldValue_of hcolon,
      hreset]
  exact decode_trans (decode_text hcr htext) hend

/-- **An empty line.** -/
theorem decode_blank {d : Decoder} (hline : d.line = []) (hcr : d.afterCr = false) :
    decode d [10] = ({ d with type := [], data := [] }, d.dispatched) := by
  rw [decode_lf hcr, Decoder.endLine, if_pos hline]

/-! ### What bytes can bring -/

/-- What a line can come to at most, where every data line begins with the field name, a colon and
a blank. -/
def lineWorth (line : Bytes) : ℕ :=
  if ascii "data: " <+: line then line.length - 5 else line.length - 3

/-- The data there are and those the line can bring. -/
def Decoder.worth (d : Decoder) : ℕ := d.data.length + lineWorth d.line

/-- The data of dispatched events, each with its line feed. -/
def eventsWorth (events : List Event) : ℕ := (events.map fun e => e.data.length + 1).sum

/-- A carriage return has ended the line. -/
def Decoder.Sane (d : Decoder) : Prop := d.afterCr = true → d.line = []

theorem lineWorth_append (line : Bytes) (b : UInt8) :
    lineWorth (line ++ [b]) ≤ lineWorth line + 1 := by
  unfold lineWorth
  have hlen : (line ++ [b]).length = line.length + 1 := List.length_append
  by_cases h : ascii "data: " <+: line
  · rw [if_pos h, if_pos (h.trans (List.prefix_append line [b]))]
    omega
  · rw [if_neg h]
    split
    · omega
    · omega

theorem fieldValue_worth {line : Bytes} (h : fieldName line = ascii "data") :
    (fieldValue line).length + 1 ≤ lineWorth line := by
  have hsplit : ascii "data" ++ line.dropWhile (· != 58) = line := by
    rw [← h]
    exact List.takeWhile_append_dropWhile
  unfold fieldValue
  cases hrest : line.dropWhile (· != 58) with
  | nil =>
      rw [hrest, List.append_nil] at hsplit
      rw [← hsplit]
      decide
  | cons c more =>
      have hc : c = 58 := by
        have hhead := List.head?_dropWhile_not (· != 58) line
        rw [hrest] at hhead
        simpa using hhead
      subst hc
      rw [hrest] at hsplit
      rw [← hsplit, List.drop_one, List.tail_cons]
      cases more with
      | nil => decide
      | cons b value =>
          unfold lineWorth
          have hlen : (ascii "data" ++ 58 :: b :: value).length = value.length + 6 := by
            simp [List.length_append, show (ascii "data").length = 4 from by decide]
            omega
          rw [hlen]
          by_cases hb : b = 32
          · subst hb
            have hpre : ascii "data: " <+: ascii "data" ++ 58 :: 32 :: value := ⟨value, by
              rw [show ascii "data: " = ascii "data" ++ [58, 32] from by decide]
              simp⟩
            rw [if_pos hpre]
            simp only [stripBlank]
            omega
          · have hpre : ¬ascii "data: " <+: ascii "data" ++ 58 :: b :: value := by
              rw [show ascii "data: " = ascii "data" ++ [58, 32] from by decide,
                List.prefix_append_right_inj]
              simp [List.cons_prefix_cons, Ne.symm hb]
            rw [if_neg hpre]
            have hkept : stripBlank (b :: value) = b :: value := by
              unfold stripBlank
              split
              · next heq => exact absurd (List.cons.inj heq).1 hb
              · rfl
            rw [hkept, List.length_cons]
            omega

theorem dispatched_worth (d : Decoder) : eventsWorth d.dispatched = d.data.length := by
  unfold Decoder.dispatched
  by_cases h : d.data = []
  · rw [if_pos h, h]
    rfl
  · have hpos : 0 < d.data.length := List.length_pos_iff.mpr h
    rw [if_neg h]
    simp only [eventsWorth, List.map_cons, List.map_nil, List.sum_cons, List.sum_nil,
      List.length_dropLast]
    omega

theorem field_worth {d : Decoder} (h : d.line = []) {line : Bytes} :
    (d.field (fieldName line) (fieldValue line)).worth ≤ d.data.length + lineWorth line := by
  have hempty : lineWorth [] = 0 := by decide
  unfold Decoder.worth Decoder.field
  split
  · simp only [h, hempty]
    omega
  split
  · next hdata =>
      have hvalue := fieldValue_worth hdata
      simp only [h, hempty, List.length_append, List.length_singleton]
      omega
  split
  · split
    · simp only [h, hempty]
      omega
    · simp only [h, hempty]
      omega
  split
  · simp only [h, hempty]
    omega
  · simp only [h, hempty]
    omega

theorem endLine_worth (d : Decoder) :
    d.endLine.1.worth + eventsWorth d.endLine.2 ≤ d.worth := by
  unfold Decoder.endLine
  by_cases h : d.line = []
  · rw [if_pos h, dispatched_worth]
    have hempty : lineWorth [] = 0 := by decide
    simp only [Decoder.worth, h, hempty, List.length_nil]
    omega
  · rw [if_neg h]
    exact field_worth (d := { d with line := [] }) rfl

theorem endLine_line (d : Decoder) : d.endLine.1.line = [] := by
  unfold Decoder.endLine
  split
  · assumption
  · unfold Decoder.field
    repeat' split
    all_goals rfl

/-- A line end brings nothing that the line did not have. -/
theorem step_lineEnd_worth (d : Decoder) {b : UInt8} (h : b = 13 ∨ b = 10) :
    (d.step b).1.worth + eventsWorth (d.step b).2 ≤ d.worth := by
  unfold Decoder.step
  rcases h with rfl | rfl
  · rw [if_neg (by decide), if_pos rfl]
    exact endLine_worth d
  · rw [if_pos rfl]
    split
    · exact Nat.le_refl _
    · exact endLine_worth d

theorem step_text_worth (d : Decoder) {b : UInt8} (h : b ≠ 13 ∧ b ≠ 10) :
    (d.step b).1.worth + eventsWorth (d.step b).2 ≤ d.worth + 1 := by
  rw [step_text d h]
  have hline := lineWorth_append d.line b
  show d.data.length + lineWorth (d.line ++ [b]) + 0 ≤ d.data.length + lineWorth d.line + 1
  omega

theorem step_sane (d : Decoder) (b : UInt8) : (d.step b).1.Sane := by
  unfold Decoder.step
  split
  · split
    · intro hcr
      cases hcr
    · next hcr =>
        intro _
        exact endLine_line d
  split
  · intro _
    exact endLine_line d
  · intro hcr
    cases hcr

theorem eventsWorth_append (xs ys : List Event) :
    eventsWorth (xs ++ ys) = eventsWorth xs + eventsWorth ys := by
  simp [eventsWorth]

end EventSource
end Dusty
