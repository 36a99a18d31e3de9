/-
Which texts get through as the name of the field of plain values.  `names` is the grammar of Avro's
names, as a regular language.  The test for a name overlooks one line feed at its end, so what it
accepts is `names * (1 + lineFeed)`.

Hence a text is told as the grammar tells it, unless it is a name with a line feed after it; and such
a text gets through as it is, line feed included.
-/
import Mathlib.Computability.Language
import StreamTable.Record.FieldName

namespace StreamTable
namespace FieldName

open Computability

/-! ## The grammar of names -/

/-- The texts of one character of a kind. -/
def oneOf (kind : Char → Prop) : Language Char := {cs | ∃ c, cs = [c] ∧ kind c}

/-- The letters of ASCII and the underscore. -/
def letters : Language Char :=
  oneOf fun c => 'A' ≤ c ∧ c ≤ 'Z' ∨ 'a' ≤ c ∧ c ≤ 'z' ∨ c = '_'

def digits : Language Char := oneOf fun c => '0' ≤ c ∧ c ≤ '9'

/-- A letter, then any number of letters and digits. -/
def names : Language Char := letters * (letters + digits)∗

def lineFeed : Language Char := {['\n']}

theorem mem_oneOf {kind : Char → Prop} {c : Char} : [c] ∈ oneOf kind ↔ kind c := by
  constructor
  · rintro ⟨d, hd, h⟩
    rwa [List.singleton_inj.mp hd]
  · exact fun h => ⟨c, rfl, h⟩

theorem mem_letters {c : Char} : [c] ∈ letters ↔ isLetter c = true := by
  rw [letters, mem_oneOf]
  simp only [isLetter, Bool.or_eq_true, Bool.and_eq_true, decide_eq_true_eq]
  tauto

theorem mem_letters_add_digits {c : Char} :
    [c] ∈ letters + digits ↔ (isLetter c || isDigit c) = true := by
  have hdigits : [c] ∈ digits ↔ isDigit c = true := by
    rw [digits, mem_oneOf, isDigit, Bool.and_eq_true, decide_eq_true_eq, decide_eq_true_eq]
  rw [Language.mem_add, mem_letters, hdigits, Bool.or_eq_true]

theorem eq_single_of_mem {cs : List Char} (h : cs ∈ letters + digits) : ∃ c, cs = [c] := by
  obtain ⟨c, hc, -⟩ | ⟨c, hc, -⟩ := h
  · exact ⟨c, hc⟩
  · exact ⟨c, hc⟩

/-- Any number of texts of one character make a text of such characters. -/
theorem mem_kstar_of_single {l : Language Char} (hl : ∀ cs ∈ l, ∃ c, cs = [c]) {cs : List Char} :
    cs ∈ l∗ ↔ ∀ c ∈ cs, [c] ∈ l := by
  constructor
  · intro h c hc
    obtain ⟨parts, rfl, hparts⟩ := Language.mem_kstar.mp h
    obtain ⟨part, hpart, hc⟩ := List.mem_flatten.mp hc
    obtain ⟨d, rfl⟩ := hl part (hparts part hpart)
    rw [List.mem_singleton.mp hc]
    exact hparts [d] hpart
  · intro h
    have hflatten : cs = (cs.map fun c => [c]).flatten := by
      rw [← List.flatMap_def, List.flatMap_singleton']
    refine Language.mem_kstar.mpr ⟨_, hflatten, fun part hpart => ?_⟩
    obtain ⟨c, hc, rfl⟩ := List.mem_map.mp hpart
    exact h c hc

theorem mem_names {cs : List Char} : cs ∈ names ↔ isName cs = true := by
  have hstar (rest : List Char) : rest ∈ (letters + digits)∗ ↔
      (rest.all fun c => isLetter c || isDigit c) = true := by
    rw [mem_kstar_of_single fun _ => eq_single_of_mem, List.all_eq_true]
    simp only [mem_letters_add_digits]
  constructor
  · intro h
    obtain ⟨first, hfirst, rest, hrest, rfl⟩ := Language.mem_mul.mp h
    obtain ⟨c, rfl, -⟩ := id hfirst
    rw [List.singleton_append, isName, mem_letters.mp hfirst, (hstar rest).mp hrest]
    rfl
  · intro h
    cases cs with
    | nil => cases h
    | cons c rest =>
      rw [isName, Bool.and_eq_true] at h
      exact Language.append_mem_mul (mem_letters.mpr h.1) ((hstar rest).mpr h.2)

theorem notMem_of_mem_names {cs : List Char} (h : cs ∈ names) : '\n' ∉ cs := by
  rw [mem_names] at h
  intro hmem
  cases cs with
  | nil => cases h
  | cons c rest =>
    rw [isName, Bool.and_eq_true, List.all_eq_true] at h
    obtain rfl | hmem := List.mem_cons.mp hmem
    · exact absurd h.1 (by decide)
    · exact absurd (h.2 '\n' hmem) (by decide)

theorem mem_names_mul_lineFeed {cs : List Char} :
    cs ∈ names * lineFeed ↔ ∃ name ∈ names, name ++ ['\n'] = cs := by
  rw [Language.mem_mul]
  constructor
  · rintro ⟨name, hname, _, rfl, h⟩
    exact ⟨name, hname, h⟩
  · rintro ⟨name, hname, h⟩
    exact ⟨name, hname, ['\n'], rfl, h⟩

theorem mem_names_mul {cs : List Char} :
    cs ∈ names * (1 + lineFeed) ↔ cs ∈ names ∨ cs ∈ names * lineFeed := by
  rw [mul_add, mul_one, Language.mem_add]

/-- No name ends in a line feed. -/
theorem notMem_names_of_lineFeed {cs : List Char} (h : cs ∈ names * lineFeed) : cs ∉ names := by
  obtain ⟨name, -, rfl⟩ := mem_names_mul_lineFeed.mp h
  exact fun hname => notMem_of_mem_names hname (by simp)

/-! ## The test for a name -/

theorem dropLineEnd_concat (cs : List Char) : dropLineEnd (cs ++ ['\n']) = cs := by
  rw [dropLineEnd, List.reverse_concat]
  exact List.reverse_reverse cs

theorem dropLineEnd_cases (cs : List Char) :
    dropLineEnd cs = cs ∨ dropLineEnd cs ++ ['\n'] = cs := by
  unfold dropLineEnd
  split
  · next rest h =>
    right
    rw [← List.reverse_cons, ← h, List.reverse_reverse]
  · exact .inl rfl

theorem dropLineEnd_of_notMem {cs : List Char} (h : '\n' ∉ cs) : dropLineEnd cs = cs := by
  obtain hsame | hdrop := dropLineEnd_cases cs
  · exact hsame
  · rw [← hdrop] at h
    exact absurd (by simp) h

/-- What the test accepts: names, and names with a line feed after them. -/
theorem isAccepted_iff {s : String} :
    isAccepted s = true ↔ s.toList ∈ names * (1 + lineFeed) := by
  rw [isAccepted, ← mem_names, mem_names_mul]
  constructor
  · intro h
    obtain hsame | hdrop := dropLineEnd_cases s.toList
    · rw [hsame] at h
      exact .inl h
    · exact .inr (mem_names_mul_lineFeed.mpr ⟨_, h, hdrop⟩)
  · rintro (h | h)
    · rwa [dropLineEnd_of_notMem (notMem_of_mem_names h)]
    · obtain ⟨name, hname, hcs⟩ := mem_names_mul_lineFeed.mp h
      rwa [← hcs, dropLineEnd_concat]

/-! ## Settings -/

theorem default_mem_names : default.toList ∈ names := mem_names.mpr (by decide)

theorem resolve_empty : resolve (.str "") = .ok default := rfl

theorem resolve_of_ne {s : String} (hs : s ≠ "") : resolve (.str s) =
    if isAccepted s then .ok s else .error (.config (.fieldName (.str s))) := by
  have htruthy : (Value.str s).isTruthy = true := by simpa [Value.isTruthy] using hs
  rw [resolve, htruthy]
  rfl

theorem resolve_of_accepted {s : String} (h : s.toList ∈ names * (1 + lineFeed)) :
    resolve (.str s) = .ok s := by
  have haccepted : isAccepted s = true := isAccepted_iff.mpr h
  have hs : s ≠ "" := by
    rintro rfl
    exact absurd haccepted (by decide)
  rw [resolve_of_ne hs, if_pos haccepted]

theorem resolve_of_refused {s : String} (hs : s ≠ "") (h : s.toList ∉ names * (1 + lineFeed)) :
    resolve (.str s) = .error (.config (.fieldName (.str s))) := by
  rw [resolve_of_ne hs, if_neg fun haccepted => h (isAccepted_iff.mp haccepted)]

/-- The name that a setting comes to: the usual one, or the text that was given. -/
theorem resolve_ok {setting : Value} {f : String} (h : resolve setting = .ok f) :
    f = default ∨ setting = .str f ∧ f.toList ∈ names * (1 + lineFeed) := by
  unfold resolve at h
  split at h
  · cases h
    exact .inl rfl
  · split at h
    · split at h
      · next haccepted =>
        cases h
        exact .inr ⟨rfl, isAccepted_iff.mp haccepted⟩
      · cases h
    · cases h

/-- A text comes to itself just if it is accepted. -/
theorem resolve_eq_self_iff {s : String} :
    resolve (.str s) = .ok s ↔ s.toList ∈ names * (1 + lineFeed) := by
  refine ⟨fun h => ?_, resolve_of_accepted⟩
  obtain rfl | ⟨-, haccepted⟩ := resolve_ok h
  · exact mem_names_mul.mpr (.inl default_mem_names)
  · exact haccepted

/-- What is promised of a text that is given for the name: none stands for the usual name, a name
for itself, and nothing else gets through. -/
structure Screened (s : String) : Prop where
  empty : s = "" → resolve (.str s) = .ok default
  name : resolve (.str s) = .ok s ↔ s.toList ∈ names
  other : s ≠ "" → s.toList ∉ names → resolve (.str s) = .error (.config (.fieldName (.str s)))

theorem screened_iff (s : String) : Screened s ↔ s.toList ∉ names * lineFeed := by
  constructor
  · intro h hs
    have hok : resolve (.str s) = .ok s := resolve_eq_self_iff.mpr (mem_names_mul.mpr (.inr hs))
    exact notMem_names_of_lineFeed hs (h.name.mp hok)
  · intro hs
    have hnames : s.toList ∈ names * (1 + lineFeed) ↔ s.toList ∈ names := by
      rw [mem_names_mul, or_iff_left hs]
    refine ⟨?_, resolve_eq_self_iff.trans hnames, fun hne h => ?_⟩
    · rintro rfl
      exact resolve_empty
    · exact resolve_of_refused hne fun haccepted => h (hnames.mp haccepted)

end FieldName
end StreamTable
