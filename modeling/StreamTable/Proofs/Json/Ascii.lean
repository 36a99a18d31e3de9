/-
JSON text is ASCII.  Whatever value is printed on one line, and whatever stands for what has no
JSON form, the text is made of printed characters of ASCII alone: texts are escaped, and the digits
and names of numbers need no escape.
-/
import StreamTable.Proofs.Json.Quotation

namespace StreamTable
namespace Json

/-- A character of ASCII that is printed, or a blank. -/
def isPrinted (c : Char) : Bool := 0x20 ≤ c.toNat && c.toNat < 0x7F

/-- Characters of ASCII without a control character, and so without the end of a line. -/
def Printed (cs : List Char) : Prop := ∀ c ∈ cs, isPrinted c = true

instance (cs : List Char) : Decidable (Printed cs) :=
  List.decidableBAll (fun c => isPrinted c = true) cs

@[simp] theorem printed_nil : Printed [] := nofun

@[simp] theorem printed_cons {c : Char} {cs : List Char} :
    Printed (c :: cs) ↔ isPrinted c = true ∧ Printed cs := List.forall_mem_cons

@[simp] theorem printed_append {cs ds : List Char} :
    Printed (cs ++ ds) ↔ Printed cs ∧ Printed ds := List.forall_mem_append

theorem Printed.sublist {cs ds : List Char} (h : Printed cs) (hs : ds.Sublist cs) : Printed ds :=
  fun c hc => h c (hs.subset hc)

theorem printed_replicate {c : Char} (h : isPrinted c = true) (n : Nat) :
    Printed (List.replicate n c) := by
  intro d hd
  rw [List.eq_of_mem_replicate hd]
  exact h

/-! ## Numbers -/

theorem printed_toDigits (n : Nat) : Printed (Nat.toDigits 10 n) := by
  intro c hc
  have hdigit : c.isDigit = true := Nat.isDigit_of_mem_toDigits (by decide) (by decide) hc
  have hbounds : 48 ≤ c.toNat ∧ c.toNat ≤ 57 := by
    simpa [Char.isDigit, UInt32.le_iff_toNat_le] using hdigit
  simp only [isPrinted, Bool.and_eq_true, decide_eq_true_eq]
  omega

theorem printed_nat (n : Nat) : Printed (toString n).toList := by
  rw [Nat.toString_eq_repr, Nat.toList_repr]
  exact printed_toDigits n

theorem printed_int (n : Int) : Printed (toString n).toList := by
  rw [Int.toString_eq_repr, Int.repr_eq_if]
  split
  · rw [Nat.toList_repr]
    exact printed_toDigits _
  · rw [String.toList_append, Nat.toList_repr, printed_append]
    exact ⟨by decide, printed_toDigits _⟩

theorem printed_magnitudeText (x : Double) : Printed x.magnitudeText.toList := by
  have hdigits := printed_nat x.shortest.digits
  have hzeros (n : Nat) : Printed (List.replicate n '0') := printed_replicate (by decide) n
  have htail {c : Char} {cs : List Char} (h : (toString x.shortest.digits).toList = c :: cs) :
      isPrinted c = true ∧ Printed cs := by
    rw [h] at hdigits
    exact printed_cons.mp hdigits
  have hexponent : Printed (if (toString (x.shortest.point - 1).natAbs).length < 2 then
      "0" ++ toString (x.shortest.point - 1).natAbs
      else toString (x.shortest.point - 1).natAbs).toList := by
    have hnat := printed_nat (x.shortest.point - 1).natAbs
    split
    · rw [String.toList_append, printed_append]
      exact ⟨by decide, hnat⟩
    · exact hnat
  have hmark : Printed (if x.shortest.point - 1 < 0 then "e-" else "e+").toList := by
    split <;> decide
  unfold Double.magnitudeText
  split
  case isTrue => decide
  case isFalse =>
    dsimp only
    split
    · split
      · simp only [String.toList_append, String.toList_ofList, printed_append]
        exact ⟨⟨hdigits, hzeros _⟩, by decide⟩
      split
      · simp only [String.toList_append, String.toList_ofList, printed_append]
        exact ⟨⟨hdigits.sublist (List.take_sublist _ _), by decide⟩,
          hdigits.sublist (List.drop_sublist _ _)⟩
      · simp only [String.toList_append, String.toList_ofList, printed_append]
        exact ⟨⟨by decide, hzeros _⟩, hdigits⟩
    · split
      · next d h =>
        simp only [String.toList_append, String.toList_ofList, printed_append, printed_cons]
        exact ⟨⟨htail h, hmark⟩, hexponent⟩
      · next d rest _ h =>
        simp only [String.toList_append, String.toList_ofList, printed_append, printed_cons]
        exact ⟨⟨⟨(htail h).1, by decide, (htail h).2⟩, hmark⟩, hexponent⟩
      · decide

theorem printed_doubleText (x : Double) : Printed (doubleText x).toList := by
  unfold doubleText
  split
  · decide
  next hnan =>
    split
    next hfinite =>
      rw [Double.text, if_neg hnan, hfinite]
      simp only [if_true, String.toList_append, printed_append]
      refine ⟨?_, printed_magnitudeText x⟩
      split <;> decide
    · split <;> decide

/-! ## Texts -/

theorem printed_hexPadded (width n : Nat) : Printed (Text.hexPadded width n) := by
  have hdigit : ∀ m < 16, isPrinted (Text.hexChar m) = true := by decide
  induction width generalizing n with
  | zero => exact printed_nil
  | succ width ih =>
    rw [Text.hexPadded, printed_append, printed_cons]
    exact ⟨ih (n / 16), hdigit (n % 16) (Nat.mod_lt n (by decide)), printed_nil⟩

theorem printed_unitText (n : Nat) : Printed (unitText n) := by
  rw [unitText, printed_cons, printed_cons]
  exact ⟨by decide, by decide, printed_hexPadded 4 n⟩

/-- A letter that is read after a backslash is printed. -/
theorem isPrinted_of_unescape? {letter c : Char} (h : unescape? letter = some c) :
    isPrinted letter = true := by
  unfold unescape? at h
  split at h <;> first | decide | cases h

theorem printed_escapeChar (c : Char) : Printed (escapeChar c) := by
  obtain ⟨letter, hletter, hc⟩ | ⟨-, -, hlow, hhigh, hc⟩ | ⟨-, hc⟩ | ⟨-, hc⟩ := escapeChar_cases c
  · rw [hc, printed_cons, printed_cons]
    exact ⟨by decide, isPrinted_of_unescape? hletter, printed_nil⟩
  · rw [hc, printed_cons, isPrinted, decide_eq_true hlow, decide_eq_true hhigh]
    exact ⟨rfl, printed_nil⟩
  · rw [hc]
    exact printed_unitText _
  · rw [hc, printed_append]
    exact ⟨printed_unitText _, printed_unitText _⟩

theorem printed_stringText (s : String) : Printed (stringText s).toList := by
  have hescape : Printed (escape s.toList) := by
    intro d hd
    obtain ⟨c, -, hc⟩ := List.mem_flatMap.mp hd
    exact printed_escapeChar c d hc
  rw [stringText, String.toList_ofList, List.cons_append, printed_cons, printed_append]
  exact ⟨by decide, hescape, by decide⟩

/-! ## Values -/

/-- A layout that breaks no lines and puts printed characters between the parts. -/
structure Layout.Inline (l : Layout) : Prop where
  unbroken : l.indent = none
  comma : Printed l.comma.toList
  colon : Printed l.colon.toList

theorem Layout.line_inline : Layout.line.Inline := ⟨rfl, by decide, by decide⟩

theorem Layout.Inline.breakAt {l : Layout} (h : l.Inline) (depth : Nat) : l.breakAt depth = "" := by
  rw [Layout.breakAt, h.unbroken]

theorem printed_joinTexts {sep : String} (hsep : Printed sep.toList) :
    ∀ {texts : List String}, (∀ t ∈ texts, Printed t.toList) →
      Printed (Value.joinTexts sep texts).toList
  | [], _ => printed_nil
  | [t], h => h t List.mem_cons_self
  | t :: u :: texts, h => by
    have hrest : ∀ t' ∈ u :: texts, Printed t'.toList := fun t' ht' =>
      h t' (List.mem_cons_of_mem t ht')
    rw [Value.joinTexts, String.toList_append, String.toList_append, printed_append, printed_append]
    · exact ⟨⟨h t List.mem_cons_self, hsep⟩, printed_joinTexts hsep hrest⟩
    · exact List.cons_ne_nil u texts

theorem printed_enclose {l : Layout} (hl : l.Inline) (depth : Nat) {opening closing : String}
    (ho : Printed opening.toList) (hc : Printed closing.toList) {parts : List String}
    (h : ∀ t ∈ parts, Printed t.toList) :
    Printed (enclose l depth opening closing parts).toList := by
  unfold enclose
  split
  · rw [String.toList_append, printed_append]
    exact ⟨ho, hc⟩
  · simp only [hl.breakAt, String.append_empty, String.toList_append, printed_append]
    exact ⟨⟨ho, printed_joinTexts hl.comma h⟩, hc⟩

section Printing

variable {l : Layout} {fallback : Fallback}

mutual

theorem printed_printAt? (hl : l.Inline) (depth : Nat) :
    ∀ (v : Value) {text : String}, printAt? l fallback depth v = some text → Printed text.toList
  | .null, _, h => by
    cases h
    decide
  | .bool true, _, h => by
    cases h
    decide
  | .bool false, _, h => by
    cases h
    decide
  | .int n, _, h => by
    cases h
    exact printed_int n
  | .float x, _, h => by
    cases h
    exact printed_doubleText x
  | .str s, _, h => by
    cases h
    exact printed_stringText s
  | .list xs, _, h => by
    obtain ⟨parts, hparts, rfl⟩ := Option.map_eq_some_iff.mp h
    exact printed_enclose hl depth (by decide) (by decide) (printed_printItems? hl _ xs hparts)
  | .tuple xs, _, h => by
    obtain ⟨parts, hparts, rfl⟩ := Option.map_eq_some_iff.mp h
    exact printed_enclose hl depth (by decide) (by decide) (printed_printItems? hl _ xs hparts)
  | .map es, _, h => by
    obtain ⟨parts, hparts, rfl⟩ := Option.map_eq_some_iff.mp h
    exact printed_enclose hl depth (by decide) (by decide) (printed_printEntries? hl _ es hparts)
  -- a value without a JSON form is the string of its text
  | .bytes _, _, h | .bytearray _, _, h | .date _, _, h | .datetime _, _, h | .time _, _, h
  | .decimal _, _, h | .uuid _, _, h | .set _, _, h => by
    obtain ⟨s, -, rfl⟩ := Option.map_eq_some_iff.mp h
    exact printed_stringText s

theorem printed_printItems? (hl : l.Inline) (depth : Nat) :
    ∀ (xs : List Value) {texts : List String}, printItems? l fallback depth xs = some texts →
      ∀ t ∈ texts, Printed t.toList
  | [], _, h => by
    cases h
    exact List.forall_mem_nil _
  | x :: xs, _, h => by
    obtain ⟨t, ht, h⟩ := Option.bind_eq_some_iff.mp h
    obtain ⟨ts, hts, h⟩ := Option.bind_eq_some_iff.mp h
    cases h
    exact List.forall_mem_cons.mpr
      ⟨printed_printAt? hl depth x ht, printed_printItems? hl depth xs hts⟩

theorem printed_printEntries? (hl : l.Inline) (depth : Nat) :
    ∀ (es : List (Value × Value)) {texts : List String},
      printEntries? l fallback depth es = some texts → ∀ t ∈ texts, Printed t.toList
  | [], _, h => by
    cases h
    exact List.forall_mem_nil _
  | (k, v) :: es, _, h => by
    obtain ⟨key, -, h⟩ := Option.bind_eq_some_iff.mp h
    obtain ⟨t, ht, h⟩ := Option.bind_eq_some_iff.mp h
    obtain ⟨ts, hts, h⟩ := Option.bind_eq_some_iff.mp h
    cases h
    refine List.forall_mem_cons.mpr ⟨?_, printed_printEntries? hl depth es hts⟩
    rw [String.toList_append, String.toList_append, printed_append, printed_append]
    exact ⟨⟨printed_stringText key, hl.colon⟩, printed_printAt? hl depth v ht⟩

end

end Printing

/-- The text of a document is ASCII on one line. -/
theorem printed_print? {v : Value} {text : String} (h : print? v = some text) :
    Printed text.toList :=
  printed_printAt? Layout.line_inline 0 v h

end Json
end StreamTable
