import Dusty.EventStream

/-! # Events, written and read

What a client makes of an event that `EventStream.send` wrote (`send_decodes_iff`), and of one
written in pieces (`writes_agree_iff`).  A carriage return that `send` leaves in the data ends the
line for the client, and what follows is not data any more. -/

namespace Dusty

open Act EventSource

namespace EventWriter

/-! ### The data as a client is to see them -/

/-- Every line end made a line feed. -/
def normalise : Bytes → Bytes
  | [] => []
  | 13 :: 10 :: rest => 10 :: normalise rest
  | 13 :: rest => 10 :: normalise rest
  | b :: rest => b :: normalise rest

/-- Line feeds, with a carriage return before them or not, and nothing else. -/
def lineEnds : Bytes → Bool
  | [] => true
  | 13 :: 10 :: rest => lineEnds rest
  | 10 :: rest => lineEnds rest
  | _ => false

/-- Every carriage return stands before a line feed. -/
def strict : Bytes → Bool
  | [] => true
  | 13 :: 10 :: rest => strict rest
  | 13 :: _ => false
  | _ :: rest => strict rest

/-- Every carriage return stands before a line feed, up to one that does the same as no line end
at all: it is the last byte, or stands before a carriage return and line feeds that go on to the
end of the data. -/
def clean : Bytes → Bool
  | [] => true
  | [13] => true
  | 13 :: 10 :: rest => clean rest
  | 13 :: 13 :: 10 :: rest => lineEnds rest
  | 13 :: _ => false
  | _ :: rest => clean rest

example : clean (ascii "one\r\ntwo\n") = true := by decide
example : clean (ascii "one\rtwo") = false := by decide

/-! ### Within a data line -/

/-- The client is in a data line, with the given value so far. -/
def inLine (d : Decoder) (value : Bytes) : Decoder :=
  { d with line := dataField ++ value, afterCr := false }

/-- The line has come to its end. -/
def pushed (d : Decoder) (value : Bytes) (afterCr : Bool) : Decoder :=
  { d with line := [], afterCr := afterCr, data := d.data ++ value ++ [10] }

theorem decode_cons (d : Decoder) (b : UInt8) (bs : Bytes) :
    decode d (b :: bs) = ((decode (d.step b).1 bs).1, (d.step b).2 ++ (decode (d.step b).1 bs).2) :=
  rfl

theorem endLine_inLine (d : Decoder) (value : Bytes) :
    (inLine d value).endLine = (pushed d value false, []) := by
  have hne : ¬(inLine d value).line = [] := by
    show ¬dataField ++ value = []
    simp [show dataField = ascii "data" ++ [58, 32] from by decide]
  have hname : fieldName (inLine d value).line = ascii "data" := by
    show fieldName (dataField ++ value) = _
    rw [show dataField ++ value = ascii "data" ++ 58 :: 32 :: value by
      simp [show dataField = ascii "data" ++ [58, 32] from by decide]]
    exact fieldName_of (by decide)
  have hvalue : fieldValue (inLine d value).line = value := by
    show fieldValue (dataField ++ value) = _
    rw [show dataField ++ value = ascii "data" ++ 58 :: 32 :: value by
      simp [show dataField = ascii "data" ++ [58, 32] from by decide]]
    exact fieldValue_of (by decide)
  have hevent : ascii "data" ≠ ascii "event" := by decide
  rw [Decoder.endLine, if_neg hne, hname, hvalue, Decoder.field, if_neg hevent, if_pos rfl]
  rfl

theorem decode_inLine_lf (d : Decoder) (value bs : Bytes) :
    decode (inLine d value) (10 :: bs) = decode (pushed d value false) bs := by
  have hstep : (inLine d value).step 10 = (pushed d value false, []) := by
    rw [Decoder.step, if_pos rfl, if_neg (by simp [inLine]), endLine_inLine]
  rw [decode_cons, hstep]
  rfl

theorem decode_inLine_cr (d : Decoder) (value bs : Bytes) :
    decode (inLine d value) (13 :: bs) = decode (pushed d value true) bs := by
  have hstep : (inLine d value).step 13 = (pushed d value true, []) := by
    rw [Decoder.step, if_neg (by decide), if_pos rfl, endLine_inLine]
    rfl
  rw [decode_cons, hstep]
  rfl

theorem decode_inLine_text (d : Decoder) (value : Bytes) {b : UInt8} (h : b ≠ 13 ∧ b ≠ 10)
    (bs : Bytes) : decode (inLine d value) (b :: bs) = decode (inLine d (value ++ [b])) bs := by
  have hstep : (inLine d value).step b = (inLine d (value ++ [b]), []) := by
    rw [step_text _ h]
    simp [inLine, List.append_assoc]
  rw [decode_cons, hstep]
  rfl

theorem oneLine_dataField : OneLine dataField := by
  unfold OneLine dataField
  decide

theorem decode_dataField {d : Decoder} (hline : d.line = []) (hcr : d.afterCr = false)
    (bs : Bytes) : decode d (dataField ++ bs) = decode (inLine d []) bs := by
  have hopen : { d with line := d.line ++ dataField } = inLine d [] := by
    rw [inLine, hline, ← hcr, List.nil_append, List.append_nil]
  rw [decode_append, decode_text hcr oneLine_dataField, hopen]
  rfl

theorem decode_inLine_crlf (d : Decoder) (value bs : Bytes) :
    decode (inLine d value) (13 :: 10 :: bs) = decode (pushed d value false) bs := by
  have hstep : (pushed d value true).step 10 = (pushed d value false, []) := by
    rw [Decoder.step, if_pos rfl]
    rfl
  rw [decode_inLine_cr, decode_cons, hstep]
  rfl

/-! ### Data the client sees as they are -/

theorem decode_encode_lf (d : Decoder) (value rest : Bytes) :
    decode (inLine d value) (encode (10 :: rest)) =
      decode (inLine (pushed d value false) []) (encode rest) := by
  rw [encode, decode_inLine_lf, decode_dataField rfl rfl]

theorem decode_encode_crlf (d : Decoder) (value rest : Bytes) :
    decode (inLine d value) (encode (13 :: 10 :: rest)) =
      decode (inLine (pushed d value false) []) (encode rest) := by
  rw [encode, decode_inLine_lf, decode_dataField rfl rfl]

theorem decode_encode_text (d : Decoder) (value : Bytes) {b : UInt8} (h : b ≠ 13 ∧ b ≠ 10)
    (rest : Bytes) : decode (inLine d value) (encode (b :: rest)) =
      decode (inLine d (value ++ [b])) (encode rest) := by
  rw [encode_cons h, decode_inLine_text d value h]

theorem encode_cr {rest : Bytes} (hne : rest ≠ []) (hlf : ∀ more, rest ≠ 10 :: more) :
    encode (13 :: rest) = 13 :: encode rest := by
  rw [encode]
  · exact fun _ h => hne h
  · exact fun more _ h => hlf more h
  · decide

theorem normalise_text {b : UInt8} (h : b ≠ 13) (rest : Bytes) :
    normalise (b :: rest) = b :: normalise rest := by
  rw [normalise]
  · exact fun _ hb _ => h hb
  · exact h

theorem normalise_cr {rest : Bytes} (hlf : ∀ more, rest ≠ 10 :: more) :
    normalise (13 :: rest) = 10 :: normalise rest := by
  rw [normalise]
  exact fun more h => hlf more h

/-- **Data with proper line ends.** -/
theorem decode_strict {data : Bytes} (h : strict data = true) (d : Decoder) (value : Bytes) :
    decode (inLine d value) (encode data) = (pushed d (value ++ normalise data) false, []) := by
  fun_induction strict data generalizing d value with
  | case1 =>
      rw [encode, decode_inLine_lf, normalise, List.append_nil]
      rfl
  | case2 rest ih =>
      rw [decode_encode_crlf, ih h, normalise]
      simp [pushed, List.append_assoc]
  | case3 rest hrest => cases h
  | case4 b rest hlf hcr ih =>
      by_cases hb : b = 10
      · rw [hb, decode_encode_lf, ih h, normalise_text (by decide)]
        simp [pushed, List.append_assoc]
      · rw [decode_encode_text d value ⟨hcr, hb⟩, ih h, normalise_text hcr]
        simp [pushed, List.append_assoc]

theorem strict_of_lineEnds {data : Bytes} (h : lineEnds data = true) :
    strict data = true ∧ ∀ b ∈ normalise data, b = 10 := by
  fun_induction lineEnds data with
  | case1 => exact ⟨rfl, by simp [normalise]⟩
  | case2 rest ih =>
      obtain ⟨hstrict, hall⟩ := ih h
      refine ⟨by rwa [strict], fun b hb => ?_⟩
      rw [normalise] at hb
      rcases List.mem_cons.mp hb with rfl | hb
      · rfl
      · exact hall b hb
  | case3 rest ih =>
      obtain ⟨hstrict, hall⟩ := ih h
      refine ⟨hstrict, fun b hb => ?_⟩
      rw [normalise_text (by decide)] at hb
      rcases List.mem_cons.mp hb with rfl | hb
      · rfl
      · exact hall b hb
  | case4 => cases h

theorem lineEnds_of_strict {data : Bytes} (h : strict data = true)
    (hall : ∀ b ∈ normalise data, b = 10) : lineEnds data = true := by
  fun_induction strict data with
  | case1 => rfl
  | case2 rest ih =>
      rw [normalise] at hall
      rw [lineEnds]
      exact ih h fun b hb => hall b (List.mem_cons_of_mem _ hb)
  | case3 rest hrest => cases h
  | case4 b rest hlf hcr ih =>
      rw [normalise_text hcr] at hall
      obtain rfl : b = 10 := hall b List.mem_cons_self
      show lineEnds rest = true
      exact ih h fun c hc => hall c (List.mem_cons_of_mem _ hc)

/-- Line feeds only, when one in front is the same as one behind. -/
theorem eq_of_cons_eq_append {xs : Bytes} : 10 :: xs = xs ++ [10] ↔ ∀ b ∈ xs, b = 10 := by
  induction xs with
  | nil => simp
  | cons b xs ih =>
      simp only [List.cons_append, List.cons.injEq, List.mem_cons, forall_eq_or_imp]
      constructor
      · rintro ⟨rfl, h⟩
        exact ⟨rfl, ih.mp h⟩
      · rintro ⟨rfl, h⟩
        exact ⟨rfl, ih.mpr h⟩

/-- **Data the client sees as they are**, but for a line end at their end. -/
theorem decode_clean {data : Bytes} (h : clean data = true) (d : Decoder) (value : Bytes) :
    ∃ seen, decode (inLine d value) (encode data) = (pushed d (value ++ seen) false, []) ∧
      (seen = normalise data ∨ normalise data = seen ++ [10]) := by
  fun_induction clean data generalizing d value with
  | case1 =>
      refine ⟨[], ?_, .inl rfl⟩
      rw [encode, decode_inLine_lf, List.append_nil]
      rfl
  | case2 =>
      refine ⟨[], ?_, .inr rfl⟩
      rw [encode, decode_inLine_lf, List.append_nil]
      rfl
  | case3 rest ih =>
      obtain ⟨seen, hrun, hseen⟩ := ih h (pushed d value false) []
      refine ⟨10 :: seen, ?_, ?_⟩
      · rw [decode_encode_crlf, hrun]
        simp [pushed, List.append_assoc]
      · rw [normalise]
        simpa using hseen
  | case4 rest =>
      -- the two line ends before the rest are one for the client
      obtain ⟨hstrict, hall⟩ := strict_of_lineEnds h
      refine ⟨10 :: normalise rest, ?_, .inr ?_⟩
      · rw [encode_cr (by simp) (by simp), encode, decode_inLine_crlf, decode_dataField rfl rfl,
          decode_strict hstrict]
        simp [pushed, List.append_assoc]
      · rw [normalise_cr (by simp), normalise, List.cons_append, eq_of_cons_eq_append.mpr hall]
  | case5 rest h₁ h₂ h₃ => cases h
  | case6 b rest h₁ h₂ h₃ hcr ih =>
      by_cases hb : b = 10
      · subst hb
        obtain ⟨seen, hrun, hseen⟩ := ih h (pushed d value false) []
        refine ⟨10 :: seen, ?_, ?_⟩
        · rw [decode_encode_lf, hrun]
          simp [pushed, List.append_assoc]
        · rw [normalise_text hcr]
          simpa using hseen
      · obtain ⟨seen, hrun, hseen⟩ := ih h d (value ++ [b])
        refine ⟨b :: seen, ?_, ?_⟩
        · rw [decode_encode_text d value ⟨hcr, hb⟩, hrun]
          simp [pushed, List.append_assoc]
        · rw [normalise_text hcr]
          simpa using hseen

/-! ### Data that lose something -/

/-- The data and the events a client has after bytes. -/
def gained (d : Decoder) (bs : Bytes) : ℕ := (decode d bs).1.worth + eventsWorth (decode d bs).2

theorem gained_cons (d : Decoder) (b : UInt8) (bs : Bytes) :
    gained d (b :: bs) = eventsWorth (d.step b).2 + gained (d.step b).1 bs := by
  unfold gained
  rw [decode_cons, eventsWorth_append]
  exact Nat.add_left_comm _ _ _

theorem gained_lineEnd (d : Decoder) {b : UInt8} (h : b = 13 ∨ b = 10) {bs : Bytes} {n : ℕ}
    (hrest : gained (d.step b).1 bs ≤ (d.step b).1.worth + n) : gained d (b :: bs) ≤ d.worth + n := by
  have hstep := step_lineEnd_worth d h
  rw [gained_cons]
  omega

/-- A line feed leaves the client at the start of a line. -/
theorem step_lf {d : Decoder} (h : d.Sane) : (d.step 10).1.line = [] ∧ (d.step 10).1.afterCr = false := by
  unfold Decoder.step
  rw [if_pos rfl]
  split
  · next hcr => exact ⟨h hcr, rfl⟩
  · next hcr =>
      refine ⟨endLine_line d, ?_⟩
      have hkept : d.endLine.1.afterCr = d.afterCr := by
        unfold Decoder.endLine
        split
        · rfl
        · unfold Decoder.field
          repeat' split
          all_goals rfl
      rw [hkept]
      simpa using hcr

theorem gained_dataField {d : Decoder} (hline : d.line = []) (hcr : d.afterCr = false) {bs : Bytes}
    {n : ℕ} (hrest : gained (inLine d []) bs ≤ (inLine d []).worth + n) :
    gained d (dataField ++ bs) ≤ d.worth + (n + 1) := by
  have hworth : (inLine d []).worth = d.worth + 1 := by
    have hempty : lineWorth [] = 0 := by decide
    have hfield : lineWorth (dataField ++ []) = 1 := by decide
    unfold Decoder.worth
    rw [hline, hempty]
    show d.data.length + lineWorth (dataField ++ []) = _
    rw [hfield]
  unfold gained at hrest ⊢
  rw [decode_dataField hline hcr]
  omega

/-- Whatever state the client is in, it gains no more than the data amount to. -/
theorem gained_encode (data : Bytes) {d : Decoder} (h : d.Sane) :
    gained d (encode data) ≤ d.worth + (normalise data).length := by
  have hlf : ∀ {d : Decoder} {rest : Bytes}, d.Sane →
      (∀ {d : Decoder}, d.Sane → gained d (encode rest) ≤ d.worth + (normalise rest).length) →
      gained d (10 :: (dataField ++ encode rest)) ≤ d.worth + ((normalise rest).length + 1) := by
    intro d rest hd ih
    obtain ⟨hline, hcr⟩ := step_lf hd
    exact gained_lineEnd d (.inr rfl) (gained_dataField hline hcr (ih nofun))
  fun_induction encode data generalizing d with
  | case1 => exact gained_lineEnd d (.inr rfl) (Nat.le_refl _)
  | case2 => exact gained_lineEnd d (.inr rfl) (Nat.le_add_right _ _)
  | case3 rest ih =>
      rw [normalise]
      exact hlf h ih
  | case4 rest ih =>
      rw [normalise_text (by decide)]
      exact hlf h ih
  | case5 b rest h₁ h₂ h₃ ih =>
      have hnext := ih (step_sane d b)
      by_cases hb : b = 13
      · subst hb
        rw [normalise_cr fun more hm => h₂ more rfl hm, List.length_cons]
        exact gained_lineEnd d (.inl rfl) (by omega)
      · have hstep := step_text_worth d ⟨hb, h₃⟩
        rw [normalise_text hb, List.length_cons, gained_cons]
        omega

theorem worth_inLine (d : Decoder) (value : Bytes) :
    (inLine d value).worth = d.data.length + value.length + 1 := by
  have hlen : (dataField ++ value).length = value.length + 6 := by
    rw [List.length_append, show dataField.length = 6 from by decide]
    omega
  have hline : lineWorth (dataField ++ value) = value.length + 1 := by
    have hpre : ascii "data: " <+: dataField ++ value := List.prefix_append _ _
    rw [lineWorth, if_pos hpre, hlen]
    omega
  show d.data.length + lineWorth (dataField ++ value) = _
  rw [hline]
  omega

theorem length_pushed (d : Decoder) (value : Bytes) (afterCr : Bool) :
    (pushed d value afterCr).data.length = d.data.length + value.length + 1 := by
  simp [pushed, Nat.add_assoc]

theorem worth_pushed (d : Decoder) (value : Bytes) (afterCr : Bool) :
    (pushed d value afterCr).worth = d.data.length + value.length + 1 := by
  have hempty : lineWorth [] = 0 := by decide
  show (pushed d value afterCr).data.length + lineWorth [] = _
  rw [hempty, length_pushed]

/-- A carriage return that is not before a line feed costs something. -/
theorem gained_not_strict {data : Bytes} (h : strict data = false) (d : Decoder) (value : Bytes) :
    gained (inLine d value) (encode data) ≤ d.data.length + value.length + (normalise data).length := by
  fun_induction strict data generalizing d value with
  | case1 => cases h
  | case2 rest ih =>
      have hnext := ih h (pushed d value false) []
      have hlen := length_pushed d value false
      unfold gained at hnext ⊢
      rw [decode_encode_crlf, normalise, List.length_cons]
      rw [hlen, List.length_nil] at hnext
      omega
  | case3 rest hrest =>
      by_cases hnil : rest = []
      · subst hnil
        have hend : gained (inLine d value) [10] ≤ (inLine d value).worth + 0 :=
          gained_lineEnd _ (.inr rfl) (Nat.le_refl _)
        rw [worth_inLine] at hend
        exact hend
      · have hnext := gained_encode rest (d := pushed d value true) fun _ => rfl
        rw [worth_pushed] at hnext
        unfold gained at hnext ⊢
        rw [encode_cr hnil hrest, decode_inLine_cr, normalise_cr hrest, List.length_cons]
        omega
  | case4 b rest hlf hcr ih =>
      by_cases hb : b = 10
      · have hnext := ih h (pushed d value false) []
        have hlen := length_pushed d value false
        unfold gained at hnext ⊢
        rw [hb, decode_encode_lf, normalise_text (by decide), List.length_cons]
        rw [hlen, List.length_nil] at hnext
        omega
      · have hnext := ih h d (value ++ [b])
        unfold gained at hnext ⊢
        rw [decode_encode_text d value ⟨hcr, hb⟩, normalise_text hcr, List.length_cons]
        rw [List.length_append, List.length_singleton] at hnext
        omega

/-- Behind a carriage return that ended the line, the next byte is lost, whatever it is. -/
theorem gained_after_cr {d : Decoder} (hline : d.line = []) {rest : Bytes} (hne : rest ≠ [])
    (hlf : ∀ more, rest ≠ 10 :: more) (hcrlf : ∀ more, rest ≠ 13 :: 10 :: more) :
    gained d (encode rest) + 1 ≤ d.worth + (normalise rest).length := by
  cases rest with
  | nil => exact absurd rfl hne
  | cons c rest =>
      by_cases hc : c = 13
      · subst hc
        have hrest : ∀ more, rest ≠ 10 :: more := fun more h => hcrlf more (by rw [h])
        rw [normalise_cr hrest, List.length_cons]
        by_cases hnil : rest = []
        · subst hnil
          have hend : gained d [10] ≤ d.worth + 0 := gained_lineEnd d (.inr rfl) (Nat.le_refl _)
          exact Nat.succ_le_succ hend
        · have hend := gained_lineEnd d (.inl rfl) (gained_encode rest (step_sane d 13))
          rw [encode_cr hnil hrest]
          omega
      · have hlf' : c ≠ 10 := fun h => hlf rest (by rw [h])
        have hnext := gained_encode rest (step_sane d c)
        have hworth : (d.step c).1.worth = d.worth := by
          have hempty : lineWorth [] = 0 := by decide
          have hone : lineWorth [c] = 0 := by
            unfold lineWorth
            split
            · rfl
            · rfl
          rw [step_text d ⟨hc, hlf'⟩]
          show d.data.length + lineWorth (d.line ++ [c]) = d.data.length + lineWorth d.line
          rw [hline, List.nil_append, hone, hempty]
        have hnone : eventsWorth (d.step c).2 = 0 := by
          rw [step_text d ⟨hc, hlf'⟩]
          rfl
        rw [encode_cons ⟨hc, hlf'⟩, normalise_text hc, List.length_cons, gained_cons]
        omega

theorem event_short {d d' : Decoder} {bs : Bytes} {event : EventSource.Event}
    (h : decode d (bs ++ [10]) = (d', [event])) : event.data.length + 1 ≤ gained d bs := by
  rw [decode_append] at h
  have hstep := step_lineEnd_worth (decode d bs).1 (.inr rfl : (10 : UInt8) = 13 ∨ (10 : UInt8) = 10)
  have hevents : eventsWorth ((decode d bs).2 ++ (decode (decode d bs).1 [10]).2) =
      event.data.length + 1 := by
    rw [(Prod.mk.inj h).2]
    rfl
  rw [eventsWorth_append, decode_cons] at hevents
  simp only [decode, List.append_nil] at hevents
  unfold gained
  omega

theorem decode_append_congr {d d' : Decoder} {xs ys : Bytes} (h : decode d xs = decode d' ys)
    (bs : Bytes) : decode d (xs ++ bs) = decode d' (ys ++ bs) := by
  rw [decode_append, decode_append, h]

/-- Neither the data nor the data without a line end. -/
def Differs (seen whole : Bytes) : Prop := seen ≠ whole ∧ whole ≠ seen ++ [10]

theorem differs_of_short {seen whole : Bytes} (h : seen.length + 2 ≤ whole.length) :
    Differs seen whole := by
  constructor
  · rintro rfl
    omega
  · rintro rfl
    rw [List.length_append, List.length_singleton] at h
    omega

theorem decode_pushed_blank (d : Decoder) (value : Bytes) :
    decode (pushed d value false) [10] =
      ({ d with line := [], afterCr := false, type := [], data := [] },
        [{ type := if d.type = [] then ascii "message" else d.type
           data := d.data ++ value
           lastId := d.lastId }]) := by
  have hne : ¬(pushed d value false).data = [] := by simp [pushed]
  have hdata : (pushed d value false).data.dropLast = d.data ++ value := List.dropLast_concat
  rw [decode_blank rfl rfl, Decoder.dispatched, if_neg hne, hdata]
  rfl

/-- **Data that are not clean.**  If they make one event at all, its data are others. -/
theorem decode_unclean {data : Bytes} (h : clean data = false) (d : Decoder) (value : Bytes)
    {d' : Decoder} {event : EventSource.Event}
    (hrun : decode (inLine d value) (encode data ++ [10]) = (d', [event])) :
    Differs event.data (d.data ++ value ++ normalise data) := by
  fun_induction clean data generalizing d value with
  | case1 => cases h
  | case2 => cases h
  | case3 rest ih =>
      rw [decode_append_congr (decode_encode_crlf d value rest)] at hrun
      have hnext := ih h _ _ hrun
      rw [normalise]
      simpa [pushed, List.append_assoc] using hnext
  | case4 rest =>
      have hcr : decode (inLine d value) (encode (13 :: 13 :: 10 :: rest)) =
          decode (inLine (pushed d value false) []) (encode rest) := by
        rw [encode_cr (by simp) (by simp), encode, decode_inLine_crlf, decode_dataField rfl rfl]
      rw [decode_append_congr hcr] at hrun
      rw [normalise_cr (by simp), normalise]
      cases hstrict : strict rest with
      | false =>
          have hshort := event_short hrun
          have hgained := gained_not_strict hstrict (pushed d value false) []
          rw [length_pushed, List.length_nil] at hgained
          apply differs_of_short
          simp only [List.length_append, List.length_cons]
          omega
      | true =>
          rw [decode_append, decode_strict hstrict, decode_pushed_blank] at hrun
          have hevent : event.data = d.data ++ value ++ [10] ++ normalise rest := by
            have hlist := (Prod.mk.inj hrun).2
            simp only [List.nil_append, List.cons.injEq, and_true] at hlist
            rw [← hlist]
            simp [pushed]
          constructor
          · intro heq
            have hlen := congrArg List.length heq
            rw [hevent] at hlen
            simp only [List.length_append, List.length_cons, List.length_nil] at hlen
            omega
          · intro heq
            rw [hevent] at heq
            have htail : 10 :: normalise rest = normalise rest ++ [10] := by
              apply (List.append_right_inj (d.data ++ value ++ [10])).mp
              simpa [List.append_assoc] using heq
            have hall := lineEnds_of_strict hstrict (eq_of_cons_eq_append.mp htail)
            rw [hall] at h
            cases h
  | case5 rest h₁ h₂ h₃ =>
      have hlf : ∀ more, rest ≠ 10 :: more := h₂
      have hshort := event_short hrun
      have hgained := gained_after_cr (d := pushed d value true) rfl h₁ hlf h₃
      rw [worth_pushed] at hgained
      have hsame : gained (inLine d value) (encode (13 :: rest)) =
          gained (pushed d value true) (encode rest) := by
        unfold gained
        rw [encode_cr h₁ hlf, decode_inLine_cr]
      apply differs_of_short
      rw [normalise_cr hlf]
      simp only [List.length_append, List.length_cons]
      omega
  | case6 b rest h₁ h₂ h₃ hcr ih =>
      rw [normalise_text hcr]
      by_cases hb : b = 10
      · subst hb
        rw [decode_append_congr (decode_encode_lf d value rest)] at hrun
        have hnext := ih h _ _ hrun
        simpa [pushed, List.append_assoc] using hnext
      · rw [decode_append_congr (decode_encode_text d value ⟨hcr, hb⟩ rest)] at hrun
        have hnext := ih h _ _ hrun
        simpa [List.append_assoc] using hnext

/-! ### The options -/

/-- What the option lines leave in the buffers: an identifier with a null in it is ignored. -/
def received (opts : EventOptions) (d : Decoder) : Decoder :=
  { d with
    type := opts.event.getD d.type
    lastId := if 0 ∈ opts.id.getD [] then d.lastId else opts.id.getD d.lastId
    retry := opts.retry.or d.retry }

theorem decode_fieldBytes {d : Decoder} (hline : d.line = []) (hcr : d.afterCr = false)
    (name : Bytes) (hcolon : (58 : UInt8) ∉ name) (hname : OneLine name) {value : Bytes}
    (hvalue : OneLine value) :
    decode d (fieldBytes (name ++ [58, 32]) (some value)) = (d.field name value, []) := by
  have hbytes : fieldBytes (name ++ [58, 32]) (some value) =
      name ++ 58 :: 32 :: value ++ [10] := by
    simp [fieldBytes, List.append_assoc]
  rw [hbytes]
  exact decode_line hline hcr hcolon hname hvalue

theorem oneLine_of_breaksLine {value : Bytes} (h : breaksLine (some value) = false) :
    OneLine value := by
  intro b hb
  have hall : ∀ b ∈ value, b ≠ 13 ∧ b ≠ 10 := by simpa [breaksLine] using h
  exact hall b hb

theorem oneLine_fmtNat (n : ℕ) : OneLine (fmtNat 10 n) := by
  intro b hb
  have hle := fmtNat_bytes (by decide) (by decide) b hb
  constructor
  · rintro rfl
    exact absurd hle (by decide)
  · rintro rfl
    exact absurd hle (by decide)

/-- **The option lines.** -/
theorem decode_options {opts : EventOptions} (h : ValidOptions opts) {d : Decoder}
    (hline : d.line = []) (hcr : d.afterCr = false) :
    decode d (optionsBytes opts) = (received opts d, []) := by
  let d₁ := { d with type := opts.event.getD d.type }
  let d₂ := { d₁ with lastId := if 0 ∈ opts.id.getD [] then d.lastId else opts.id.getD d.lastId }
  have hevent : decode d (fieldBytes (ascii "event: ") opts.event) = (d₁, []) := by
    cases he : opts.event with
    | none =>
        simp only [d₁, he]
        rfl
    | some value =>
        have hvalue := h.1
        rw [he] at hvalue
        simp only [d₁, he]
        exact decode_fieldBytes hline hcr (ascii "event") (by decide) (by unfold OneLine; decide)
          (oneLine_of_breaksLine hvalue)
  have hid : decode d₁ (fieldBytes (ascii "id: ") opts.id) = (d₂, []) := by
    cases hi : opts.id with
    | none =>
        simp only [d₂, hi]
        rfl
    | some value =>
        have hvalue := h.2
        rw [hi] at hvalue
        have hfield : d₁.field (ascii "id") value = d₂ := by
          have h₁ : ascii "id" ≠ ascii "event" := by decide
          have h₂ : ascii "id" ≠ ascii "data" := by decide
          rw [Decoder.field, if_neg h₁, if_neg h₂, if_pos rfl]
          simp only [d₂, hi, Option.getD_some]
          split
          · rfl
          · rfl
        rw [← hfield]
        exact decode_fieldBytes (d := d₁) hline hcr (ascii "id") (by decide) (by unfold OneLine; decide)
          (oneLine_of_breaksLine hvalue)
  have hretry : decode d₂ (fieldBytes (ascii "retry: ") (opts.retry.map (fmtNat 10))) =
      (received opts d, []) := by
    cases hr : opts.retry with
    | none =>
        simp only [received, hr]
        rfl
    | some n =>
        have hfield : d₂.field (ascii "retry") (fmtNat 10 n) = received opts d := by
          have h₁ : ascii "retry" ≠ ascii "event" := by decide
          have h₂ : ascii "retry" ≠ ascii "data" := by decide
          have h₃ : ascii "retry" ≠ ascii "id" := by decide
          rw [Decoder.field, if_neg h₁, if_neg h₂, if_neg h₃, if_pos rfl,
            readNat_fmtNat (by decide) (by decide), received, hr]
        rw [← hfield]
        exact decode_fieldBytes (d := d₂) hline hcr (ascii "retry") (by decide) (by unfold OneLine; decide)
          (oneLine_fmtNat n)
  exact decode_trans hevent (decode_trans hid hretry)

/-! ### What `send` is for -/

/-- Bytes that are the event: whoever is between two events sees exactly one, with the type, the
identifier, the reconnection time and the data given. -/
def Decodes (opts : EventOptions) (data bytes : Bytes) : Prop :=
  ∀ d : Decoder, d.Between → ∃ event d', decode d bytes = (d', [event]) ∧ d'.Between ∧
    event.type = opts.event.getD (ascii "message") ∧
    event.lastId = opts.id.getD d.lastId ∧ d'.retry = opts.retry.or d.retry ∧
    (event.data = normalise data ∨ normalise data = event.data ++ [10])

/-- The data keep their lines, the identifier has no null in it, and the type is not empty. -/
def Unambiguous (opts : EventOptions) (data : Bytes) : Prop :=
  clean data = true ∧ 0 ∉ opts.id.getD [] ∧ opts.event ≠ some []

instance (opts : EventOptions) (data : Bytes) : Decidable (Unambiguous opts data) :=
  inferInstanceAs (Decidable (_ ∧ _))

/-- What the whole of `send` comes to, up to the data. -/
theorem decode_send {opts : EventOptions} (h : ValidOptions opts) (data : Bytes) {d : Decoder}
    (hline : d.line = []) (hcr : d.afterCr = false) :
    decode d (optionsBytes opts ++ (sendBytes data ++ [10])) =
      decode (inLine (received opts d) []) (encode data ++ [10]) := by
  have hfirst := decode_dataField (d := received opts d) hline hcr (encode data ++ [10])
  rw [decode_append, decode_options h hline hcr, sendBytes, List.append_assoc, hfirst]
  rfl

theorem decodes_of_unambiguous {opts : EventOptions} (h : ValidOptions opts) {data : Bytes}
    (hdata : Unambiguous opts data) :
    Decodes opts data (optionsBytes opts ++ (sendBytes data ++ [10])) := by
  intro d hd
  obtain ⟨hclean, hnull, hevent⟩ := hdata
  obtain ⟨seen, hrun, hseen⟩ := decode_clean hclean (received opts d) []
  let r := received opts d
  have hempty : r.data = [] := hd.data
  refine ⟨⟨if r.type = [] then ascii "message" else r.type, r.data ++ ([] ++ seen), r.lastId⟩,
    { r with line := [], afterCr := false, type := [], data := [] }, ?_, ⟨rfl, rfl, rfl, rfl⟩,
    ?_, ?_, rfl, ?_⟩
  · rw [decode_send h data hd.line hd.afterCr, decode_append, hrun, decode_pushed_blank]
    rfl
  · have htype : r.type = opts.event.getD [] := by
      rw [← hd.type]
      rfl
    show (if r.type = [] then ascii "message" else r.type) = _
    rw [htype]
    cases he : opts.event with
    | none => rfl
    | some type =>
        have hne : ¬(some type).getD [] = [] := by
          rintro rfl
          exact hevent he
        rw [if_neg hne]
        rfl
  · show (if 0 ∈ opts.id.getD [] then d.lastId else opts.id.getD d.lastId) = _
    rw [if_neg hnull]
  · show r.data ++ ([] ++ seen) = normalise data ∨ normalise data = r.data ++ ([] ++ seen) ++ [10]
    rw [hempty]
    exact hseen

theorem between_fresh : ({} : Decoder).Between := ⟨rfl, rfl, rfl, rfl⟩

theorem unambiguous_of_decodes {opts : EventOptions} (h : ValidOptions opts) {data : Bytes}
    (hdecodes : Decodes opts data (optionsBytes opts ++ (sendBytes data ++ [10]))) :
    Unambiguous opts data := by
  obtain ⟨event, d', hrun, -, htype, hid, -, hdata⟩ := hdecodes {} between_fresh
  rw [decode_send h data rfl rfl] at hrun
  have hclean : clean data = true := by
    cases hc : clean data with
    | true => rfl
    | false =>
        obtain ⟨h₁, h₂⟩ := decode_unclean hc (received opts {}) [] hrun
        rcases hdata with hdata | hdata
        · exact absurd hdata h₁
        · exact absurd hdata h₂
  obtain ⟨seen, hseen, -⟩ := decode_clean hclean (received opts {}) []
  rw [decode_append, hseen, decode_pushed_blank] at hrun
  have hlist := (Prod.mk.inj hrun).2
  simp only [List.nil_append, List.cons.injEq, and_true] at hlist
  subst hlist
  refine ⟨hclean, fun hnull => ?_, fun he => ?_⟩
  · have hlast : (if 0 ∈ opts.id.getD [] then [] else opts.id.getD []) = opts.id.getD [] := hid
    rw [if_pos hnull] at hlast
    rw [← hlast] at hnull
    cases hnull
  · have hmessage : (received opts {}).type = [] := by
      show opts.event.getD [] = []
      rw [he]
      rfl
    simp only [hmessage, if_true, he, Option.getD_some] at htype
    exact absurd htype (by decide)

/-- What `send` is to do on a stream: refuse the options and write nothing, or write the event. -/
def Sends (opts : EventOptions) (data : Bytes) : Prop :=
  ∀ s : Self, s.w.discard = false → match send data opts s with
    | .ok _ s' => ∃ bytes, s'.res.conn.out = s.res.conn.out ++ bytes ∧ Decodes opts data bytes
    | .error f s' => f = .err .invalidEventField ∧ s' = s ∨
        f = .err .writeFailed ∧ s.res.conn.faults ≠ []

/-- A stream on a connection that never fails. -/
def stream : Self := ⟨.init {} 0, ⟨false, false⟩⟩

/-- **Exactly which events survive.**  `send` refuses the options, or the client gets the one
event that was meant, if and only if the data keep their lines and neither the identifier nor the
type is one a client does not take. -/
theorem send_decodes_iff (opts : EventOptions) (data : Bytes) :
    Sends opts data ↔ (ValidOptions opts → Unambiguous opts data) := by
  constructor
  · intro hsends hvalid
    have hspec := hsends stream rfl
    have hbytes := send_valid hvalid data false stream rfl
    cases hrun : send data opts stream with
    | error f s' =>
        rw [hrun] at hbytes
        exact absurd rfl hbytes.2
    | ok u s' =>
        rw [hrun] at hspec hbytes
        obtain ⟨bytes, hout, hdecodes⟩ := hspec
        have hsame : bytes = optionsBytes opts ++ (sendBytes data ++ [10]) := by
          rw [hbytes.out] at hout
          exact (List.append_cancel_left hout).symm
        rw [hsame] at hdecodes
        exact unambiguous_of_decodes hvalid hdecodes
  · intro h s hdiscard
    by_cases hvalid : ValidOptions opts
    · have hbytes := send_valid hvalid data s.w.lineInProgress s rfl
      cases hrun : send data opts s with
      | error f s' =>
          rw [hrun] at hbytes
          exact .inr hbytes
      | ok u s' =>
          rw [hrun] at hbytes
          refine ⟨_, ?_, decodes_of_unambiguous hvalid (h hvalid)⟩
          rw [hbytes.out, hdiscard]
          rfl
    · rw [send_invalid hvalid data s]
      exact .inl ⟨rfl, rfl⟩

/-- A carriage return in the data brings in an identifier. -/
theorem send_injects : ¬∀ (opts : EventOptions) (data : Bytes), Sends opts data := by
  intro hall
  have hvalid : ValidOptions {} := by decide
  have hspec := hall {} (ascii "a\rid: 7") stream rfl
  have hbytes := send_valid hvalid (ascii "a\rid: 7") false stream rfl
  cases hrun : send (ascii "a\rid: 7") {} stream with
  | error f s' =>
      rw [hrun] at hbytes
      exact hbytes.2 rfl
  | ok u s' =>
      rw [hrun] at hspec hbytes
      obtain ⟨bytes, hout, hdecodes⟩ := hspec
      have hsame : bytes = optionsBytes {} ++ (sendBytes (ascii "a\rid: 7") ++ [10]) := by
        rw [hbytes.out] at hout
        exact (List.append_cancel_left hout).symm
      rw [hsame] at hdecodes
      obtain ⟨event, d', hdecode, -, -, hid, -⟩ := hdecodes {} between_fresh
      have hevents : (decode {} (optionsBytes {} ++ (sendBytes (ascii "a\rid: 7") ++ [10]))).2 =
          [⟨ascii "message", ascii "a", ascii "7"⟩] := by decide +kernel
      rw [hdecode] at hevents
      cases hevents
      cases hid

/-! ### The two ways of writing an event -/

theorem strict_of_not_mem {data : Bytes} (h : 13 ∉ data) :
    strict data = true ∧ normalise data = data := by
  induction data with
  | nil => exact ⟨rfl, rfl⟩
  | cons b rest ih =>
      obtain ⟨hb, hrest⟩ : 13 ≠ b ∧ 13 ∉ rest := by simpa using h
      obtain ⟨hstrict, hsame⟩ := ih hrest
      refine ⟨?_, by rw [normalise_text (Ne.symm hb), hsame]⟩
      rw [strict]
      · exact hstrict
      · exact fun _ hcr _ => hb hcr.symm
      · exact fun hcr => hb hcr.symm

/-- The data of the event, for data without carriage returns. -/
theorem decode_send_data {opts : EventOptions} (h : ValidOptions opts) {data : Bytes}
    (hcr : 13 ∉ data) :
    (decode {} (optionsBytes opts ++ (sendBytes data ++ [10]))).2.map EventSource.Event.data = [data] := by
  obtain ⟨hstrict, hsame⟩ := strict_of_not_mem hcr
  rw [decode_send h data rfl rfl, decode_append, decode_strict hstrict, decode_pushed_blank, hsame]
  rfl

theorem decode_no_data {opts : EventOptions} (h : ValidOptions opts) :
    (decode {} (optionsBytes opts ++ [10])).2 = [] := by
  have hblank := decode_blank (d := received opts {}) rfl rfl
  rw [decode_append, decode_options h rfl rfl, hblank]
  rfl

/-- On a connection that does not fail, `send` and the writes refuse the options alike, or write
what a client takes for the same. -/
def Agree (opts : EventOptions) (data : Bytes) (writes : List Write) : Prop :=
  ∀ s t : Self, s.w.discard = false → t.w.discard = false → s.res.conn.faults = [] →
    t.res.conn.faults = [] → match send data opts s, sendInWrites writes opts t with
      | .ok _ s', .ok _ t' => ∃ bs cs, s'.res.conn.out = s.res.conn.out ++ bs ∧
          t'.res.conn.out = t.res.conn.out ++ cs ∧
          ∀ d : Decoder, d.Between → decode d bs = decode d cs
      | .error f s', .error g t' => f = g ∧ s' = s ∧ t' = t
      | _, _ => False

theorem Emits.run {b b' : Bool} {bytes : Bytes} {x : Act Self Unit} (h : Emits b bytes b' x)
    {s : Self} (hb : s.w.lineInProgress = b) (hdiscard : s.w.discard = false)
    (hfaults : s.res.conn.faults = []) :
    ∃ s', x s = .ok () s' ∧ s'.res.conn.out = s.res.conn.out ++ bytes := by
  have hspec := h s hb
  cases hrun : x s with
  | error f s' =>
      rw [hrun] at hspec
      exact absurd hfaults hspec.2
  | ok u s' =>
      rw [hrun] at hspec
      refine ⟨s', rfl, ?_⟩
      rw [hspec.out, hdiscard]
      rfl

theorem dropLf_of_lf {data : Bytes} (h : data.getLast? = some 10) : dropLf data ≠ data := by
  intro hsame
  have hne : data ≠ [] := by
    rintro rfl
    cases h
  have hlen := congrArg List.length hsame
  rw [dropLf, if_pos h, List.length_dropLast] at hlen
  have hpos := List.length_pos_iff.mpr hne
  omega

theorem not_mem_dropLf {data : Bytes} (h : 13 ∉ data) : 13 ∉ dropLf data := by
  unfold dropLf
  split
  · exact fun hmem => h (List.mem_of_mem_dropLast hmem)
  · exact h

/-- The bytes decode alike only for data that are there and do not end with a line feed. -/
theorem same_bytes_iff {opts : EventOptions} (h : ValidOptions opts) {data : Bytes}
    (hcr : 13 ∉ data) :
    (∀ d : Decoder, d.Between → decode d (optionsBytes opts ++ (sendBytes data ++ [10])) =
        decode d (optionsBytes opts ++ streamBytes data)) ↔
      data ≠ [] ∧ data.getLast? ≠ some 10 := by
  constructor
  · intro hall
    have hfirst := hall {} between_fresh
    have hdata := decode_send_data h hcr
    rw [hfirst, streamBytes_eq hcr] at hdata
    by_cases hnil : data = []
    · rw [if_pos hnil, decode_no_data h] at hdata
      cases hdata
    · rw [if_neg hnil, decode_send_data h (not_mem_dropLf hcr)] at hdata
      refine ⟨hnil, fun hlast => ?_⟩
      exact dropLf_of_lf hlast (List.cons.inj hdata).1
  · rintro ⟨hnil, hlast⟩ d -
    rw [streamBytes_eq hcr, if_neg hnil, dropLf, if_neg hlast]

/-- **Exactly when the two ways agree.**  However the data are cut into writes, an event written
in pieces is the event `send` makes of the whole if and only if the options are refused or there
are data and they do not end with a line feed. -/
theorem writes_agree_iff (opts : EventOptions) {data : Bytes} (hcr : 13 ∉ data)
    {writes : List Write} (hwrites : writes.flatMap Write.bytes = data) :
    Agree opts data writes ↔
      (ValidOptions opts → data ≠ [] ∧ data.getLast? ≠ some 10) := by
  subst hwrites
  constructor
  · intro hagree hvalid
    obtain ⟨s', hsend, hout⟩ := (send_valid hvalid _ false).run (s := stream) rfl rfl rfl
    obtain ⟨t', hpieces, hout'⟩ := (sendInWrites_valid hvalid writes hcr false).run (s := stream)
      rfl rfl rfl
    have hspec := hagree stream stream rfl rfl rfl rfl
    rw [hsend, hpieces] at hspec
    obtain ⟨bs, cs, hbs, hcs, hsame⟩ := hspec
    rw [hout] at hbs
    rw [hout'] at hcs
    obtain rfl := List.append_cancel_left hbs
    obtain rfl := List.append_cancel_left hcs
    exact (same_bytes_iff hvalid hcr).mp hsame
  · intro h s t hs ht hsf htf
    by_cases hvalid : ValidOptions opts
    · obtain ⟨s', hsend, hout⟩ := (send_valid hvalid _ _).run (s := s) rfl hs hsf
      obtain ⟨t', hpieces, hout'⟩ := (sendInWrites_valid hvalid writes hcr _).run (s := t) rfl ht htf
      rw [hsend, hpieces]
      exact ⟨_, _, hout, hout', (same_bytes_iff hvalid hcr).mpr (h hvalid)⟩
    · rw [send_invalid hvalid, sendInWrites_invalid hvalid]
      exact ⟨rfl, rfl, rfl⟩

theorem writes_agree_iff_sample :
    Agree {} (ascii "one\none\none") [⟨[ascii "one", []], ascii "\none", 2⟩] ↔
      (ValidOptions {} → ascii "one\none\none" ≠ [] ∧ (ascii "one\none\none").getLast? ≠ some 10) :=
  writes_agree_iff {} (by decide) (by decide)

/-- Without any write there is no event, where `send` makes one of no data. -/
theorem writes_disagree :
    ¬∀ (opts : EventOptions) (data : Bytes) (writes : List Write), 13 ∉ data →
      writes.flatMap Write.bytes = data → Agree opts data writes := by
  intro hall
  have hvalid : ValidOptions {} := by decide
  obtain ⟨s', hsend, hout⟩ := (send_valid hvalid [] false).run (s := stream) rfl rfl rfl
  obtain ⟨t', hpieces, hout'⟩ := (sendInWrites_valid hvalid [] (by decide) false).run (s := stream)
    rfl rfl rfl
  have hspec := hall {} [] [] (by decide) rfl stream stream rfl rfl rfl rfl
  rw [hsend, hpieces] at hspec
  obtain ⟨bs, cs, hbs, hcs, hsame⟩ := hspec
  rw [hout] at hbs
  rw [hout'] at hcs
  obtain rfl := List.append_cancel_left hbs
  obtain rfl := List.append_cancel_left hcs
  have hdata := (same_bytes_iff hvalid (by decide)).mp hsame
  exact hdata.1 rfl

end EventWriter
end Dusty
