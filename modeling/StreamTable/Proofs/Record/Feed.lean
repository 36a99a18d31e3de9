/-
Files of entries.  Each line is looked at by itself: whether it gives a record, and which one, does
not depend on the lines around it, and a line that is no entry is passed over.  Two kinds of lines
are not passed over but end the reading: JSON that is no object, and a plain value that comes without
a schema when none can be read off it.

The main statement says what is read of any file, and that a file is read to its end just when it
has no such line.
-/
import StreamTable.Record.Entry

namespace StreamTable
namespace PlainValue

/-! ## Why a plain value has no descriptor -/

/-- A failure that says that a value is no plain one, or that its type has no text. -/
def IsRefusal (f : Failure) : Prop := (∃ fault, f = .primitive fault) ∨ f = .data .wrongType

theorem scalar_error {v : Value} {f : Failure} (h : scalar v = .error f) : IsRefusal f := by
  cases v with
  | null | decimal | uuid | list | tuple | set | map =>
    exact .inl ⟨_, (Except.error.inj h).symm⟩
  | _ => cases h

theorem scalars_error {es : List (Value × Value)} {f : Failure} (h : scalars es = .error f) :
    IsRefusal f := by
  induction es with
  | nil => cases h
  | cons e es ih =>
    obtain ⟨k, v⟩ := e
    rw [scalars] at h
    cases hv : scalar v with
    | error g =>
      rw [hv] at h
      cases h
      exact scalar_error hv
    | ok x =>
      rw [hv] at h
      cases hes : scalars es with
      | error g =>
        rw [hes] at h
        cases h
        exact ih hes
      | ok y =>
        rw [hes] at h
        cases h

theorem typed_error {v : Value} {f : Failure} (h : typed v = .error f) : IsRefusal f := by
  cases v with
  | map es =>
    rw [typed] at h
    split at h
    · exact .inl ⟨_, (Except.error.inj h).symm⟩
    · cases hes : scalars es with
      | error g =>
        rw [hes] at h
        cases h
        exact scalars_error hes
      | ok x =>
        obtain ⟨types, stored⟩ := x
        rw [hes] at h
        cases types with
        | nil => cases h
        | cons type rest =>
          simp only [bind, Except.bind] at h
          split at h
          · cases h
          · exact .inl ⟨_, (Except.error.inj h).symm⟩
  | _ =>
    simp only [typed] at h
    exact scalar_error h

theorem descriptor_error {v : Value} {fieldName : String} {f : Failure}
    (h : descriptor v fieldName = .error f) : IsRefusal f := by
  rw [descriptor, node] at h
  cases hv : typed v with
  | error g =>
    rw [hv] at h
    cases h
    exact typed_error hv
  | ok x =>
    rw [hv] at h
    simp only [bind, Except.bind, pure, Except.pure] at h
    split at h
    · cases h
    · exact .inr (Except.error.inj h).symm

end PlainValue

namespace Record

/-! ## One line -/

/-- The value of a line that is JSON. -/
def valueOf? (line : String) : Option Value :=
  (Json.read (String.ofList (Text.trim line.toList))).toOption

/-- The record of a line that is an entry; the number of the line stands for an id that is
missing. -/
def entryOf? (fieldName : String) (number : Nat) (line : String) : Option Record :=
  (valueOf? line).bind fun v => (ofEntry number v fieldName).toOption

/-- A record without the id that it is called by. -/
def content (r : Record) : Option String × Encoding × Value := (r.descriptor, r.encoding, r.payload)

/-- What a line says, whatever its number. -/
def contentOf? (fieldName : String) (line : String) : Option (Option String × Encoding × Value) :=
  (entryOf? fieldName 0 line).map content

def isBlankLine (line : String) : Bool := (Text.trim line.toList).isEmpty

/-- A part of an entry, null if it is missing. -/
def part (es : List (Value × Value)) (key : String) : Value := (Value.field? es key).getD .null

/-- Whether an entry is a plain value without a schema, and none can be read off it. -/
def lacksSchema (fieldName : String) (es : List (Value × Value)) : Bool :=
  (part es "encoding").isText "primitive" && (part es "schema").isNull &&
    match PlainValue.descriptor (part es "payload") fieldName with
    | .error (.primitive _) => true
    | _ => false

/-- Whether reading ends at a line without getting to the next. -/
def breaksOff (fieldName : String) (line : String) : Bool :=
  match valueOf? line with
  | some (.map es) => lacksSchema fieldName es
  | some _ => true
  | none => false

theorem ofEntry_map (number : Nat) (es : List (Value × Value)) (fieldName : String) :
    ofEntry number (.map es) fieldName =
      (Encoding.ofEntry number es).bind fun encoding =>
        (descriptorOf encoding (part es "schema") (part es "payload") fieldName).bind fun d =>
          .ok ⟨some d, encoding, part es "payload",
            .str ((Value.field? es "id").getD (.int number)).text⟩ := rfl

/-- An encoding that is not known is a fault of the entry. -/
theorem encoding_error {number : Nat} {es : List (Value × Value)} {f : Failure}
    (h : Encoding.ofEntry number es = .error f) : isSkipped f = true := by
  unfold Encoding.ofEntry at h
  split at h
  · cases h
  · split at h
    · cases h
    · cases h
      rfl

theorem encoding_primitive_iff (number : Nat) {es : List (Value × Value)} :
    Encoding.ofEntry number es = .ok .primitive ↔
      (part es "encoding").isText "primitive" = true := by
  unfold Encoding.ofEntry part
  cases Value.field? es "encoding" with
  | none => simp [Value.isText]
  | some v =>
    cases v with
    | str s =>
      simp only [Value.asStr?, Option.bind_some, Option.getD_some, Value.isText, beq_iff_eq,
        Encoding.ofText?]
      grind
    | _ => simp [Value.asStr?, Value.isText]

/-- A descriptor is found for every entry but a plain value without a schema, unless what should be
the schema has no text. -/
theorem descriptorOf_error {encoding : Encoding} {schema payload : Value} {fieldName : String}
    {f : Failure} (h : descriptorOf encoding schema payload fieldName = .error f)
    (hf : isSkipped f = false) :
    encoding = .primitive ∧ schema.isNull = true ∧
      PlainValue.descriptor payload fieldName = .error f := by
  unfold descriptorOf at h
  split at h
  · split at h
    · exact ⟨‹_›, rfl, h⟩
    · cases h
  · cases h
  · split at h
    · cases h
    · cases h
      cases hf

/-- An entry that ends the reading is one of the two kinds. -/
theorem ofEntry_error_iff {number : Nat} {es : List (Value × Value)} {fieldName : String} :
    (∃ f, ofEntry number (.map es) fieldName = .error f ∧ isSkipped f = false) ↔
      lacksSchema fieldName es = true := by
  rw [ofEntry_map, lacksSchema, Bool.and_eq_true, Bool.and_eq_true,
    ← encoding_primitive_iff number]
  constructor
  · rintro ⟨f, h, hf⟩
    cases he : Encoding.ofEntry number es with
    | error g =>
      rw [he] at h
      cases h
      rw [encoding_error he] at hf
      cases hf
    | ok encoding =>
      rw [he] at h
      cases hd : descriptorOf encoding (part es "schema") (part es "payload") fieldName with
      | ok d =>
        simp only [Except.bind, hd] at h
        cases h
      | error g =>
        simp only [Except.bind, hd] at h
        cases h
        obtain ⟨rfl, hnull, hdescriptor⟩ := descriptorOf_error hd hf
        refine ⟨⟨rfl, hnull⟩, ?_⟩
        obtain ⟨fault, rfl⟩ | rfl := PlainValue.descriptor_error hdescriptor
        · rw [hdescriptor]
        · cases hf
  · rintro ⟨⟨he, hnull⟩, hdescriptor⟩
    have hschema : part es "schema" = .null := by
      cases hs : part es "schema" with
      | null => rfl
      | _ => simp [hs, Value.isNull] at hnull
    split at hdescriptor
    · next fault hd =>
      refine ⟨.primitive fault, ?_, rfl⟩
      simp [he, hschema, Except.bind, descriptorOf, hd]
    · cases hdescriptor

/-- A line that is JSON is read as an entry. -/
theorem ofLine_of_value {line : String} {v : Value} (fieldName : String) (number : Nat)
    (hb : isBlankLine line = false)
    (hread : Json.read (String.ofList (Text.trim line.toList)) = .ok v) :
    ofLine fieldName number line =
      match ofEntry number v fieldName with
      | .ok r => .record r
      | .error f => if isSkipped f then .skipped f else .failed f := by
  rw [isBlankLine] at hb
  cases hentry : ofEntry number v fieldName with
  | ok r => simp only [ofLine, hb, hread, hentry, Bool.false_eq_true, if_false]
  | error f => simp only [ofLine, hb, hread, hentry, Bool.false_eq_true, if_false]

/-- A line that is not JSON is skipped. -/
theorem ofLine_of_error {line : String} {e : Json.ReadError} (fieldName : String) (number : Nat)
    (hb : isBlankLine line = false)
    (hread : Json.read (String.ofList (Text.trim line.toList)) = .error e) :
    ∃ cause, ofLine fieldName number line = .skipped cause := by
  rw [isBlankLine] at hb
  cases e with
  | malformed m => exact ⟨_, by simp only [ofLine, hb, hread, Bool.false_eq_true, if_false]; rfl⟩
  | tooManyDigits =>
    exact ⟨_, by simp only [ofLine, hb, hread, Bool.false_eq_true, if_false]; rfl⟩

/-- Whether reading ends at a line is told by the failure of its entry. -/
theorem breaksOff_iff {fieldName line : String} {v : Value} (number : Nat)
    (hv : valueOf? line = some v) :
    breaksOff fieldName line = true ↔
      ∃ f, ofEntry number v fieldName = .error f ∧ isSkipped f = false := by
  rw [breaksOff, hv]
  cases v with
  | map es => exact ofEntry_error_iff.symm
  | _ => exact ⟨fun _ => ⟨_, rfl, rfl⟩, fun _ => rfl⟩

/-- What can become of a line. -/
theorem ofLine_cases (fieldName : String) (number : Nat) (line : String) :
    (ofLine fieldName number line = .blank ∧ isBlankLine line = true ∧
      breaksOff fieldName line = false ∧ entryOf? fieldName number line = none) ∨
    (∃ r, ofLine fieldName number line = .record r ∧ breaksOff fieldName line = false ∧
      entryOf? fieldName number line = some r) ∨
    (∃ cause, ofLine fieldName number line = .skipped cause ∧ isBlankLine line = false ∧
      breaksOff fieldName line = false ∧ entryOf? fieldName number line = none) ∨
    (∃ f, ofLine fieldName number line = .failed f ∧ breaksOff fieldName line = true) := by
  have hnone (hv : valueOf? line = none) :
      breaksOff fieldName line = false ∧ entryOf? fieldName number line = none := by
    rw [breaksOff, entryOf?, hv]
    exact ⟨rfl, rfl⟩
  cases hb : isBlankLine line with
  | true =>
    have hempty : Text.trim line.toList = [] := List.isEmpty_iff.mp hb
    have hv : valueOf? line = none := by
      rw [valueOf?, hempty]
      rfl
    refine .inl ⟨?_, rfl, hnone hv⟩
    rw [ofLine, hempty]
    rfl
  | false =>
    right
    cases hread : Json.read (String.ofList (Text.trim line.toList)) with
    | error e =>
      obtain ⟨cause, hcause⟩ := ofLine_of_error fieldName number hb hread
      have hv : valueOf? line = none := by
        rw [valueOf?, hread]
        rfl
      exact .inr (.inl ⟨cause, hcause, rfl, hnone hv⟩)
    | ok v =>
      have hv : valueOf? line = some v := by
        rw [valueOf?, hread]
        rfl
      have hentry : entryOf? fieldName number line = (ofEntry number v fieldName).toOption := by
        rw [entryOf?, hv]
        rfl
      have hbreaks : breaksOff fieldName line = true ↔ _ := breaksOff_iff number hv
      rw [ofLine_of_value fieldName number hb hread, hentry]
      cases he : ofEntry number v fieldName with
      | ok r =>
        refine .inl ⟨r, rfl, ?_, rfl⟩
        simpa [he] using hbreaks
      | error f =>
        right
        cases hf : isSkipped f with
        | true =>
          refine .inl ⟨f, by simp [hf], rfl, ?_, rfl⟩
          simpa [he, hf] using hbreaks
        | false => exact .inr ⟨f, by simp [hf], hbreaks.mpr ⟨f, he, hf⟩⟩

/-- What a record says does not depend on the number of its line. -/
theorem content_entryOf? (fieldName : String) (number : Nat) (line : String) :
    (entryOf? fieldName number line).map content = contentOf? fieldName line := by
  have hencoding (m : Nat) (es : List (Value × Value)) :
      (Encoding.ofEntry m es).toOption = (Encoding.ofEntry 0 es).toOption := by
    unfold Encoding.ofEntry
    split
    · rfl
    · split
      · rfl
      · rfl
  rw [contentOf?, entryOf?, entryOf?]
  cases valueOf? line with
  | none => rfl
  | some v =>
    cases v with
    | map es =>
      simp only [Option.bind_some, ofEntry_map]
      have hes := hencoding number es
      cases hn : Encoding.ofEntry number es with
      | error f =>
        cases hz : Encoding.ofEntry 0 es with
        | error g => rfl
        | ok encoding =>
          rw [hn, hz] at hes
          cases hes
      | ok encoding =>
        cases hz : Encoding.ofEntry 0 es with
        | error g =>
          rw [hn, hz] at hes
          cases hes
        | ok encoding' =>
          rw [hn, hz] at hes
          cases hes
          simp only [Except.bind]
          cases descriptorOf encoding (part es "schema") (part es "payload") fieldName with
          | error f => rfl
          | ok d => rfl
    | _ => rfl

/-- A record without an id of its own is called by the number of its line. -/
theorem id_of_entryOf? {fieldName line : String} {number : Nat} {es : List (Value × Value)}
    {r : Record} (hv : valueOf? line = some (.map es)) (hid : Value.field? es "id" = none)
    (hr : entryOf? fieldName number line = some r) : r.id = .str (toString number) := by
  rw [entryOf?, hv, Option.bind_some, ofEntry_map, hid] at hr
  cases he : Encoding.ofEntry number es with
  | error f =>
    rw [he] at hr
    cases hr
  | ok encoding =>
    rw [he] at hr
    simp only [Except.bind] at hr
    split at hr
    · cases hr
    · cases hr
      rfl

end Record

namespace Feed

open Record

/-! ## Many lines -/

variable {fieldName : String}

/-- The lines that are got to: those before the first that ends the reading. -/
def linesReached (fieldName : String) (lines : List String) : List String :=
  lines.takeWhile fun line => !breaksOff fieldName line

/-- The records of lines, the first of which has the given number. -/
def entriesOf (fieldName : String) (number : Nat) (lines : List String) : List Record :=
  (lines.zipIdx number).filterMap fun l => entryOf? fieldName l.2 l.1

/-- The numbers of the lines that are neither blank nor give a record. -/
def oddLines (fieldName : String) (number : Nat) (lines : List String) : List Nat :=
  ((lines.zipIdx number).filter fun l =>
    !isBlankLine l.1 && (entryOf? fieldName l.2 l.1).isNone).map Prod.snd

theorem linesReached_cons_sound {line : String} (lines : List String)
    (h : breaksOff fieldName line = false) :
    linesReached fieldName (line :: lines) = line :: linesReached fieldName lines := by
  rw [linesReached, List.takeWhile_cons, h]
  rfl

theorem linesReached_cons_breaking {line : String} (lines : List String)
    (h : breaksOff fieldName line = true) : linesReached fieldName (line :: lines) = [] := by
  rw [linesReached, List.takeWhile_cons, h]
  rfl

theorem linesReached_of_sound {lines : List String} (h : lines.any (breaksOff fieldName) = false) :
    linesReached fieldName lines = lines := by
  induction lines with
  | nil => rfl
  | cons line lines ih =>
    rw [List.any_cons, Bool.or_eq_false_iff] at h
    rw [linesReached_cons_sound lines h.1, ih h.2]

/-- Reading gets to the end just when no line ends it before. -/
theorem failure?_ofLines (number : Nat) (lines : List String) :
    (ofLines fieldName .done number lines).failure?.isNone = !lines.any (breaksOff fieldName) := by
  induction lines generalizing number with
  | nil => rfl
  | cons line lines ih =>
    have hrest := ih (number + 1)
    rw [ofLines, List.any_cons]
    obtain ⟨ho, -, hb, -⟩ | ⟨r, ho, hb, -⟩ | ⟨cause, ho, -, hb, -⟩ | ⟨f, ho, hb⟩ :=
      ofLine_cases fieldName number line
    · rwa [ho, hb, Bool.false_or]
    · rwa [ho, hb, Bool.false_or]
    · rwa [ho, hb, Bool.false_or]
    · rw [ho, hb, Bool.true_or]
      rfl

theorem records_ofLines (number : Nat) (lines : List String) :
    (ofLines fieldName .done number lines).records =
      entriesOf fieldName number (linesReached fieldName lines) := by
  induction lines generalizing number with
  | nil => rfl
  | cons line lines ih =>
    have hrest := ih (number + 1)
    rw [ofLines]
    obtain ⟨ho, -, hb, he⟩ | ⟨r, ho, hb, he⟩ | ⟨cause, ho, -, hb, he⟩ | ⟨f, ho, hb⟩ :=
      ofLine_cases fieldName number line
    · simpa [ho, linesReached_cons_sound lines hb, entriesOf, he] using hrest
    · simpa [ho, linesReached_cons_sound lines hb, entriesOf, he, records] using hrest
    · simpa [ho, linesReached_cons_sound lines hb, entriesOf, he, records] using hrest
    · simp [ho, linesReached_cons_breaking lines hb, entriesOf, records]

theorem skippedLines_ofLines (number : Nat) (lines : List String) :
    (ofLines fieldName .done number lines).skippedLines =
      oddLines fieldName number (linesReached fieldName lines) := by
  induction lines generalizing number with
  | nil => rfl
  | cons line lines ih =>
    have hrest := ih (number + 1)
    rw [ofLines]
    obtain ⟨ho, hl, hb, -⟩ | ⟨r, ho, hb, he⟩ | ⟨cause, ho, hl, hb, he⟩ | ⟨f, ho, hb⟩ :=
      ofLine_cases fieldName number line
    · simpa [ho, linesReached_cons_sound lines hb, oddLines, hl] using hrest
    · simpa [ho, linesReached_cons_sound lines hb, oddLines, he, skippedLines] using hrest
    · simpa [ho, linesReached_cons_sound lines hb, oddLines, hl, he, skippedLines] using hrest
    · simp [ho, linesReached_cons_breaking lines hb, oddLines, skippedLines]

theorem contents_entriesOf (number : Nat) (lines : List String) :
    (entriesOf fieldName number lines).map content = lines.filterMap (contentOf? fieldName) := by
  induction lines generalizing number with
  | nil => rfl
  | cons line lines ih =>
    have hrest := ih (number + 1)
    have hline := content_entryOf? fieldName number line
    rw [entriesOf, List.zipIdx_cons, List.filterMap_cons, List.filterMap_cons, ← hline]
    cases entryOf? fieldName number line with
    | none => exact hrest
    | some r => exact congrArg (content r :: ·) hrest

/-- Lines are read independently.  A file is read to its end just when no line of it ends the
reading; what is read are the records of the lines before that, in order, with the numbers of their
lines for ids that are missing; every other line that is not blank is passed over.  In a file that
is read to its end, lines that give no record can be put in, taken out or exchanged for others, and
the remaining lines still give what they gave. -/
theorem lines_are_independent (fieldName : String) (bytes : List UInt8) (text : String)
    (h : Text.ofUtf8? bytes = some text) :
    let lines := Text.lines text
    let feed := ofBytes fieldName bytes
    (feed.failure? = none ↔ ∀ line ∈ lines, breaksOff fieldName line = false) ∧
    feed.records = entriesOf fieldName 1 (linesReached fieldName lines) ∧
    feed.skippedLines = oddLines fieldName 1 (linesReached fieldName lines) ∧
    (∀ number line es r, valueOf? line = some (.map es) → Value.field? es "id" = none →
      entryOf? fieldName number line = some r → r.id = .str (toString number)) ∧
    (feed.failure? = none → ∀ before odd after, lines = before ++ odd ++ after →
      (∀ line ∈ odd, contentOf? fieldName line = none) →
      ∀ bytes' text' odd', Text.ofUtf8? bytes' = some text' →
        Text.lines text' = before ++ odd' ++ after →
        (∀ line ∈ odd', contentOf? fieldName line = none ∧ breaksOff fieldName line = false) →
        (ofBytes fieldName bytes').failure? = none ∧
        (ofBytes fieldName bytes').records.map content = feed.records.map content) := by
  intro lines feed
  have hofBytes {bytes : List UInt8} {text : String} (h : Text.ofUtf8? bytes = some text) :
      ofBytes fieldName bytes = ofLines fieldName .done 1 (Text.lines text) := by
    rw [ofBytes, h]
  have hsound {bytes : List UInt8} {text : String} (h : Text.ofUtf8? bytes = some text) :
      (ofBytes fieldName bytes).failure? = none ↔
        (Text.lines text).any (breaksOff fieldName) = false := by
    rw [← Option.isNone_iff_eq_none, hofBytes h, failure?_ofLines, Bool.not_eq_true']
  have hcontents {bytes : List UInt8} {text : String} (h : Text.ofUtf8? bytes = some text)
      (hs : (Text.lines text).any (breaksOff fieldName) = false) :
      (ofBytes fieldName bytes).records.map content =
        (Text.lines text).filterMap (contentOf? fieldName) := by
    rw [hofBytes h, records_ofLines, linesReached_of_sound hs, contents_entriesOf]
  refine ⟨?_, ?_, ?_, fun number line es r => id_of_entryOf?, ?_⟩
  · rw [hsound h, List.any_eq_false]
    simp [lines]
  · exact (congrArg records (hofBytes h)).trans (records_ofLines 1 lines)
  · exact (congrArg skippedLines (hofBytes h)).trans (skippedLines_ofLines 1 lines)
  · intro hread before odd after hlines hodd bytes' text' odd' h' hlines' hodd'
    have hs : lines.any (breaksOff fieldName) = false := (hsound h).mp hread
    have hs' : (Text.lines text').any (breaksOff fieldName) = false := by
      rw [hlines, List.any_append, List.any_append, Bool.or_eq_false_iff,
        Bool.or_eq_false_iff] at hs
      rw [hlines', List.any_append, List.any_append, hs.1.1, hs.2, Bool.or_false, Bool.false_or,
        List.any_eq_false]
      exact fun line hline => by simp [(hodd' line hline).2]
    refine ⟨(hsound h').mpr hs', ?_⟩
    have hnone (odd : List String) (ho : ∀ line ∈ odd, contentOf? fieldName line = none) :
        odd.filterMap (contentOf? fieldName) = [] := List.filterMap_eq_nil_iff.mpr ho
    rw [hcontents h' hs', hcontents h hs, show Text.lines text = _ from hlines, hlines']
    simp only [List.filterMap_append, hnone odd hodd, hnone odd' fun line hl => (hodd' line hl).1]

/-- A line with a payload and nothing else. -/
def greeting : String := "\x7b\"payload\":0\x7d"

/-- Of three lines the second is no JSON; it is passed over, and without it the same is read. -/
theorem odd_line_passed_over :
    let bytes := Text.toUtf8 (greeting ++ "\nhello\n" ++ greeting)
    let bytes' := Text.toUtf8 (greeting ++ "\n" ++ greeting)
    let feed := ofBytes "message" bytes
    Text.ofUtf8? bytes = some (greeting ++ "\nhello\n" ++ greeting) ∧
    Text.ofUtf8? bytes' = some (greeting ++ "\n" ++ greeting) ∧
    feed.failure? = none ∧ feed.records.length = 2 ∧ feed.skippedLines = [2] ∧
    (ofBytes "message" bytes').records.map content = feed.records.map content := by
  intro bytes bytes' feed
  have htext : Text.ofUtf8? bytes = some (greeting ++ "\nhello\n" ++ greeting) := by
    decide +kernel
  have htext' : Text.ofUtf8? bytes' = some (greeting ++ "\n" ++ greeting) := by
    decide +kernel
  have hlines : Text.lines (greeting ++ "\nhello\n" ++ greeting) =
      [greeting] ++ ["hello"] ++ [greeting] := by
    decide +kernel
  have hlines' : Text.lines (greeting ++ "\n" ++ greeting) = [greeting] ++ [] ++ [greeting] := by
    decide +kernel
  have hsound : ∀ line ∈ Text.lines (greeting ++ "\nhello\n" ++ greeting),
      breaksOff "message" line = false := by
    decide +kernel
  have hodd : (contentOf? "message" "hello").isNone = true := by decide +kernel
  have hall := lines_are_independent "message" bytes _ htext
  have hread : feed.failure? = none := hall.1.mpr hsound
  refine ⟨htext, htext', hread, ?_, ?_, ?_⟩
  · rw [hall.2.1]
    decide +kernel
  · rw [hall.2.2.1]
    decide +kernel
  · refine (hall.2.2.2.2 hread [greeting] ["hello"] [greeting] hlines ?_ bytes' _ [] htext' hlines'
      (List.forall_mem_nil _)).2
    rintro line hline
    rw [List.mem_singleton.mp hline]
    exact Option.isNone_iff_eq_none.mp hodd

/-- A list on the first line ends the reading: the entry on the second line is never got to, though
it gives a record when it stands alone.  A plain value without a schema does the same if it is
null. -/
theorem list_breaks_off :
    (ofBytes "message" (Text.toUtf8 ("[]\n" ++ greeting))).failure?.isSome ∧
    (ofBytes "message" (Text.toUtf8 ("[]\n" ++ greeting))).records.length = 0 ∧
    (entryOf? "message" 2 greeting).isSome ∧
    (ofBytes "message" (Text.toUtf8 greeting)).records.length = 1 ∧
    (ofBytes "message" (Text.toUtf8 ("\x7b\"encoding\":\"primitive\"\x7d\n" ++
      greeting))).failure?.isSome ∧
    (ofBytes "message" (Text.toUtf8 ("\x7b\"encoding\":\"primitive\"\x7d\n" ++
      greeting))).records.length = 0 := by
  decide +kernel

end Feed
end StreamTable
