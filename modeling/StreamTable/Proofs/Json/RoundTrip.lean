/-
Documents survive their text.  Reading follows the recursion of printing: what is written of a
value is read as that value, whatever follows it, as long as there is fuel for each character.
Whatever follows matters to a number alone, which ends where no digit, point or exponent comes.
-/
import Mathlib.Data.List.Nodup
import StreamTable.Avro.Descriptor
import StreamTable.Proofs.Json.Quotation
import StreamTable.Proofs.Value.Entries

namespace StreamTable
namespace Json

/-- What comes after a value: nothing, a comma, or a closing bracket. -/
def Follows (rest : List Char) : Prop := ∀ c ∈ rest.head?, c = ',' ∨ c = ']' ∨ c = '\x7d'

theorem follows_cons {c : Char} (h : c = ',' ∨ c = ']' ∨ c = '\x7d') (rest : List Char) :
    Follows (c :: rest) := by
  rintro c' ⟨⟩
  exact h

/-! ## Integers -/

theorem isDigit_of_mem_toDigits {n : Nat} {c : Char} (h : c ∈ Nat.toDigits 10 n) :
    isDigit c = true :=
  Nat.isDigit_of_mem_toDigits (by decide) (by decide) h

/-- Only zero begins with the digit zero. -/
theorem head?_toDigits {n : Nat} (h : (Nat.toDigits 10 n).head? = some '0') : n = 0 := by
  induction n using Nat.strongRecOn with
  | ind n ih =>
    by_cases hn : n < 10
    · rw [Nat.toDigits_of_lt_base hn, List.head?_cons, Option.some.injEq] at h
      exact Nat.digitChar_eq_zero.mp h
    · rw [Nat.toDigits_of_base_le (by decide) (Nat.not_lt.mp hn),
        List.head?_append_of_ne_nil _ Nat.toDigits_ne_nil] at h
      have hzero := ih (n / 10) (by omega) h
      omega

theorem takeWhile_digits {ds rest : List Char} (hds : ∀ c ∈ ds, isDigit c = true)
    (hrest : ∀ c ∈ rest.head?, isDigit c = false) :
    (ds ++ rest).takeWhile isDigit = ds ∧ (ds ++ rest).dropWhile isDigit = rest := by
  rw [List.takeWhile_append_of_pos hds, List.dropWhile_append_of_pos hds]
  cases rest with
  | nil => exact ⟨List.append_nil ds, rfl⟩
  | cons c rest =>
    have hc : isDigit c = false := hrest c rfl
    simp [hc]

theorem takeWhole_toDigits (n : Nat) {rest : List Char}
    (hrest : ∀ c ∈ rest.head?, isDigit c = false) :
    takeWhole (Nat.toDigits 10 n ++ rest) = (Nat.toDigits 10 n, rest) := by
  by_cases hn : n = 0
  · subst hn
    rfl
  · obtain ⟨htake, hdrop⟩ := takeWhile_digits (fun c => isDigit_of_mem_toDigits (n := n)) hrest
    rw [takeWhole, htake, hdrop]
    intro rest' h
    have hhead := congrArg List.head? h
    rw [List.head?_append_of_ne_nil _ Nat.toDigits_ne_nil] at hhead
    exact hn (head?_toDigits hhead)

theorem Follows.not_digit {rest : List Char} (h : Follows rest) :
    ∀ c ∈ rest.head?, isDigit c = false := by
  intro c hc
  obtain rfl | rfl | rfl := h c hc <;> decide

/-- Neither a fraction nor an exponent comes after a value. -/
theorem Follows.no_part {rest : List Char} (h : Follows rest) :
    takeFraction rest = (none, rest) ∧ takeExponent rest = (none, rest) := by
  cases rest with
  | nil => exact ⟨rfl, rfl⟩
  | cons c rest =>
    obtain rfl | rfl | rfl := h c rfl <;> exact ⟨rfl, rfl⟩

theorem length_toDigits_le {n k : Nat} (hk : 0 < k) (hn : n < Nat.pow 10 k) :
    (Nat.toDigits 10 n).length ≤ k :=
  (Nat.length_toDigits_le_iff (by decide) hk).mpr hn

theorem readNumber_toDigits (negative : Bool) {n : Nat} (hn : n < Nat.pow 10 Number.maxDigits)
    {rest : List Char} (hrest : Follows rest) :
    readNumber negative (Nat.toDigits 10 n ++ rest) =
      .ok (.int (if negative then -n else n), rest) := by
  have hlength : ¬(Nat.toDigits 10 n).length > Number.maxDigits :=
    Nat.not_lt.mpr (length_toDigits_le (by decide) hn)
  have hvalue : digitsValue (Nat.toDigits 10 n) = n := Nat.ofDigitChars_ten_toDigits
  rw [readNumber, takeWhole_toDigits n hrest.not_digit]
  dsimp only
  rw [hrest.no_part.1]
  dsimp only
  rw [hrest.no_part.2]
  dsimp only
  rw [if_neg hlength, hvalue]

theorem readValue_digit {d : Char} (hd : isDigit d = true) (fuel : Nat) (cs : List Char) :
    readValue (fuel + 1) (d :: cs) = readNumber false (d :: cs) := by
  rw [readValue, if_pos hd]
  -- no word and no bracket begins with a digit
  all_goals
    intros
    subst_vars
    exact absurd hd (by decide)

theorem readValue_minus {d : Char} (hd : isDigit d = true) (fuel : Nat) (cs : List Char) :
    readValue (fuel + 1) ('-' :: d :: cs) = readNumber true (d :: cs) := by
  rw [readValue, if_pos hd]
  rintro rest rfl
  exact absurd hd (by decide)

theorem toList_toString (n : Int) :
    (toString n).toList = (if 0 ≤ n then [] else ['-']) ++ Nat.toDigits 10 n.natAbs := by
  rw [Int.toString_eq_repr, Int.repr_eq_if]
  split
  case isTrue h =>
    have hnat : n.toNat = n.natAbs := by omega
    rw [hnat, Nat.toList_repr, List.nil_append]
  case isFalse h =>
    have hnat : (-n).toNat = n.natAbs := by omega
    rw [hnat, String.toList_append, Nat.toList_repr]
    rfl

theorem readValue_int {n : Int} (hn : n.natAbs < Nat.pow 10 Number.maxDigits) (fuel : Nat)
    {rest : List Char} (hrest : Follows rest) :
    readValue (fuel + 1) ((toString n).toList ++ rest) = .ok (.int n, rest) := by
  obtain ⟨d, ds, hdigits⟩ :=
    List.exists_cons_of_ne_nil (Nat.toDigits_ne_nil (n := n.natAbs) (b := 10))
  have hd : isDigit d = true :=
    isDigit_of_mem_toDigits (n := n.natAbs) (by rw [hdigits]; exact List.mem_cons_self)
  have hread (negative : Bool) := readNumber_toDigits negative hn hrest
  rw [hdigits] at hread
  rw [toList_toString, hdigits]
  by_cases h : 0 ≤ n
  · have hvalue : (n.natAbs : Int) = n := Int.natAbs_of_nonneg h
    rw [if_pos h, List.nil_append, List.cons_append, readValue_digit hd]
    rw [← List.cons_append, hread]
    exact congrArg (fun n => Except.ok (Value.int n, rest)) hvalue
  · have hvalue : -(n.natAbs : Int) = n := by omega
    rw [if_neg h, List.singleton_append, List.cons_append, List.cons_append, readValue_minus hd]
    rw [← List.cons_append, hread]
    exact congrArg (fun n => Except.ok (Value.int n, rest)) hvalue

/-! ## Values and their texts -/

/-- A character that is printed and no blank. -/
def isVisible (c : Char) : Bool := 0x21 ≤ c.toNat && c.toNat < 0x7F

/-- A text that a value may begin with. -/
def Begins (cs : List Char) : Prop :=
  ∃ c rest, cs = c :: rest ∧ isVisible c = true ∧ c ≠ ']' ∧ c ≠ '\x7d'

theorem isSpace_of_isVisible {c : Char} (h : isVisible c = true) : isSpace c = false := by
  rw [Bool.eq_false_iff]
  intro hspace
  simp only [isSpace, Bool.or_eq_true, decide_eq_true_eq] at hspace
  obtain ((rfl | rfl) | rfl) | rfl := hspace <;> exact absurd h (by decide)

theorem Begins.append {cs : List Char} (h : Begins cs) (rest : List Char) :
    Begins (cs ++ rest) := by
  obtain ⟨c, cs', rfl, hc⟩ := h
  exact ⟨c, cs' ++ rest, rfl, hc⟩

theorem Begins.skipSpace_self {cs : List Char} (h : Begins cs) : skipSpace cs = cs := by
  obtain ⟨c, rest, rfl, hc, -⟩ := h
  rw [skipSpace, List.dropWhile_cons, isSpace_of_isVisible hc]
  rfl

/-- The blank after a comma or a colon is skipped. -/
theorem Begins.skipSpace_blank {cs : List Char} (h : Begins cs) : skipSpace (' ' :: cs) = cs :=
  h.skipSpace_self

/-- The text that is written for a value, whatever the depth, and read as that value. -/
structure Tells (text : String) (v : Value) : Prop where
  printed : ∀ depth, printAt? .line .none depth v = some text
  begins : Begins text.toList
  ends : ∃ cs c, text.toList = cs ++ [c] ∧ isVisible c = true
  reading : ∀ fuel rest, text.toList.length ≤ fuel + 1 → Follows rest →
    readValue (fuel + 1) (text.toList ++ rest) = .ok (v, rest)

theorem Tells.read {text : String} {v : Value} (h : Tells text v) {fuel : Nat} {rest : List Char}
    (hfuel : text.toList.length ≤ fuel) (hrest : Follows rest) :
    readValue fuel (text.toList ++ rest) = .ok (v, rest) := by
  cases fuel with
  | zero =>
    obtain ⟨c, cs, htext, -⟩ := h.begins
    rw [htext] at hfuel
    exact absurd hfuel (Nat.not_succ_le_zero _)
  | succ fuel => exact h.reading fuel rest hfuel hrest

theorem tells_null : Tells "null" .null where
  printed _ := rfl
  begins := ⟨'n', ['u', 'l', 'l'], rfl, by decide⟩
  ends := ⟨['n', 'u', 'l'], 'l', rfl, by decide⟩
  reading _ _ _ _ := rfl

theorem tells_true : Tells "true" (.bool true) where
  printed _ := rfl
  begins := ⟨'t', ['r', 'u', 'e'], rfl, by decide⟩
  ends := ⟨['t', 'r', 'u'], 'e', rfl, by decide⟩
  reading _ _ _ _ := rfl

theorem tells_false : Tells "false" (.bool false) where
  printed _ := rfl
  begins := ⟨'f', ['a', 'l', 's', 'e'], rfl, by decide⟩
  ends := ⟨['f', 'a', 'l', 's'], 'e', rfl, by decide⟩
  reading _ _ _ _ := rfl

theorem isVisible_of_isDigit {c : Char} (h : isDigit c = true) :
    isVisible c = true ∧ c ≠ ']' ∧ c ≠ '\x7d' := by
  refine ⟨?_, ?_, ?_⟩
  · have hbounds : 48 ≤ c.toNat ∧ c.toNat ≤ 57 := by
      simpa [isDigit, Char.le_def, UInt32.le_iff_toNat_le] using h
    simp only [isVisible, Bool.and_eq_true, decide_eq_true_eq]
    omega
  · rintro rfl
    exact absurd h (by decide)
  · rintro rfl
    exact absurd h (by decide)

theorem tells_int {n : Int} (hn : n.natAbs < Nat.pow 10 Number.maxDigits) :
    Tells (toString n) (.int n) where
  printed _ := rfl
  begins := by
    rw [toList_toString]
    split
    · obtain ⟨d, ds, hdigits⟩ :=
        List.exists_cons_of_ne_nil (Nat.toDigits_ne_nil (n := n.natAbs) (b := 10))
      have hd : d ∈ Nat.toDigits 10 n.natAbs := by rw [hdigits]; exact List.mem_cons_self
      exact ⟨d, ds, hdigits, isVisible_of_isDigit (isDigit_of_mem_toDigits hd)⟩
    · exact ⟨'-', _, rfl, by decide⟩
  ends := by
    obtain ⟨ds, d, hdigits⟩ := (List.eq_nil_or_concat' (Nat.toDigits 10 n.natAbs)).resolve_left
      Nat.toDigits_ne_nil
    have hd : d ∈ Nat.toDigits 10 n.natAbs := by
      rw [hdigits]
      exact List.mem_append_right ds List.mem_cons_self
    refine ⟨(if 0 ≤ n then [] else ['-']) ++ ds, d, ?_,
      (isVisible_of_isDigit (isDigit_of_mem_toDigits hd)).1⟩
    rw [toList_toString, hdigits, List.append_assoc]
  reading fuel _ _ hrest := readValue_int hn fuel hrest

theorem tells_str (s : String) : Tells (stringText s) (.str s) where
  printed _ := rfl
  begins := ⟨'"', _, String.toList_ofList, by decide⟩
  ends := ⟨_, '"', String.toList_ofList, by decide⟩
  reading fuel rest _ _ := by
    rw [stringText, String.toList_ofList, List.append_assoc, List.cons_append, readValue,
      List.singleton_append, readString_escape]
    exact congrArg (fun s => Except.ok (Value.str s, rest)) String.ofList_toList

/-! ## Lists -/

theorem enclose_line {parts : List String} (h : parts ≠ []) (depth : Nat)
    (opening closing : String) :
    enclose .line depth opening closing parts =
      opening ++ Value.joinTexts ", " parts ++ closing := by
  have hempty : parts.isEmpty = false := List.isEmpty_eq_false_iff.mpr h
  simp [enclose, hempty, Layout.breakAt, Layout.line]

/-- A text between brackets tells a value if it is read as that value after the opening one. -/
theorem tells_enclosed {opening closing : String} {o c : Char} {body : String} {v : Value}
    (ho : opening.toList = [o]) (hc : closing.toList = [c])
    (hopening : isVisible o = true ∧ o ≠ ']' ∧ o ≠ '\x7d') (hclosing : isVisible c = true)
    (printed : ∀ depth, printAt? .line .none depth v = some (opening ++ body ++ closing))
    (reading : ∀ fuel rest, body.toList.length < fuel →
      readValue (fuel + 1) (o :: (body.toList ++ c :: rest)) = .ok (v, rest)) :
    Tells (opening ++ body ++ closing) v := by
  have htext : (opening ++ body ++ closing).toList = o :: (body.toList ++ [c]) := by
    rw [String.append_assoc, String.toList_append, String.toList_append, ho, hc]
    rfl
  refine ⟨printed, ⟨o, _, htext, hopening⟩, ⟨o :: body.toList, c, htext, hclosing⟩, ?_⟩
  intro fuel rest hfuel _
  rw [htext, List.length_cons, List.length_append, List.length_singleton] at hfuel
  rw [htext, List.cons_append, List.append_assoc, List.singleton_append]
  exact reading fuel rest (by omega)

theorem joinTexts_cons (text : String) {texts : List String} (h : texts ≠ []) :
    (Value.joinTexts ", " (text :: texts)).toList =
      text.toList ++ ',' :: ' ' :: (Value.joinTexts ", " texts).toList := by
  rw [Value.joinTexts, String.toList_append, String.toList_append, List.append_assoc]
  · rfl
  · exact h

/-- The texts of the items of a list that is not empty. -/
structure ItemsTold (texts : List String) (xs : List Value) : Prop where
  printed : ∀ depth, printItems? .line .none depth xs = some texts
  nonempty : texts ≠ []
  begins : Begins (Value.joinTexts ", " texts).toList
  read : ∀ (fuel : Nat) (acc : List Value) (rest : List Char),
    (Value.joinTexts ", " texts).toList.length < fuel →
    readItems fuel acc ((Value.joinTexts ", " texts).toList ++ ']' :: rest) =
      .ok (.list (acc.reverse ++ xs), rest)

theorem ItemsTold.singleton {text : String} {x : Value} (h : Tells text x) :
    ItemsTold [text] [x] where
  printed depth := by
    rw [printItems?, h.printed]
    rfl
  nonempty := nofun
  begins := h.begins
  read
    | fuel + 1, acc, rest, hfuel => by
      have hrest : Follows (']' :: rest) := follows_cons (.inr (.inl rfl)) rest
      rw [Value.joinTexts, readItems, h.read (Nat.le_of_lt_succ hfuel) hrest]
      exact congrArg (fun xs => Except.ok (Value.list xs, rest)) List.reverse_cons

theorem ItemsTold.cons {text : String} {x : Value} {texts : List String} {xs : List Value}
    (h : Tells text x) (hs : ItemsTold texts xs) : ItemsTold (text :: texts) (x :: xs) where
  printed depth := by
    rw [printItems?, h.printed, hs.printed]
    rfl
  nonempty := nofun
  begins := by
    rw [joinTexts_cons text hs.nonempty]
    exact h.begins.append _
  read
    | fuel + 1, acc, rest, hfuel => by
      rw [joinTexts_cons text hs.nonempty] at hfuel ⊢
      rw [List.length_append, List.length_cons, List.length_cons] at hfuel
      rw [List.append_assoc, List.cons_append, List.cons_append, readItems,
        h.read (by omega) (follows_cons (.inl rfl) _)]
      change readItems fuel (x :: acc) (skipSpace _) = _
      rw [(hs.begins.append _).skipSpace_blank, hs.read fuel (x :: acc) rest (by omega),
        List.reverse_cons, List.append_assoc]
      rfl

theorem tells_list {texts : List String} {xs : List Value} (h : ItemsTold texts xs) :
    Tells ("[" ++ Value.joinTexts ", " texts ++ "]") (.list xs) := by
  refine tells_enclosed (o := '[') (c := ']') rfl rfl (by decide) (by decide) (fun depth => ?_)
    fun fuel rest hfuel => ?_
  · rw [printAt?, h.printed, Option.map_some, enclose_line h.nonempty]
  · have hbegins := h.begins.append (']' :: rest)
    have hread := h.read fuel [] rest hfuel
    rw [readValue, hbegins.skipSpace_self]
    obtain ⟨c, cs, hcs, -, hbracket, -⟩ := hbegins
    rw [hcs] at hread ⊢
    split
    · next h' => exact absurd (List.cons.inj h').1 hbracket
    · exact hread

theorem tells_nil : Tells ("[" ++ "" ++ "]") (.list []) :=
  tells_enclosed (o := '[') (c := ']') rfl rfl (by decide) (by decide) (fun _ => rfl)
    fun _ _ _ => rfl

/-! ## Objects -/

/-- The entries that stand for fields in an object. -/
def entriesOf (fields : List (String × Value)) : List (Value × Value) :=
  fields.map fun f => (.str f.1, f.2)

/-- The text of a field whose value has the given text. -/
def fieldText (key text : String) : String := stringText key ++ ": " ++ text

theorem toList_fieldText (key text : String) : (fieldText key text).toList =
    '"' :: (escape key.toList ++ '"' :: ':' :: ' ' :: text.toList) := by
  rw [fieldText, String.toList_append, String.toList_append, stringText, String.toList_ofList]
  simp only [List.cons_append, List.append_assoc, List.nil_append]
  rfl

/-- A field that comes under a new key is put at the end. -/
theorem put_entriesOf {fields : List (String × Value)} {key : String} (v : Value)
    (h : key ∉ fields.map Prod.fst) :
    Value.put (entriesOf fields) (.str key) v = entriesOf (fields ++ [(key, v)]) := by
  have hany : ¬(entriesOf fields).any (fun e => (Value.str key).same e.1) = true := by
    intro hany
    obtain ⟨e, he, hsame⟩ := List.any_eq_true.mp hany
    obtain ⟨f, hf, rfl⟩ := List.mem_map.mp he
    have hkey : f.1 = key := Value.str.inj (Value.same_str.mp hsame)
    exact h (List.mem_map.mpr ⟨f, hf, hkey⟩)
  rw [Value.put, if_neg hany, entriesOf, entriesOf, List.map_append]
  rfl

/-- What is read from a field on depends on what comes after it. -/
theorem readFields_field {text : String} {v : Value} (h : Tells text v) (key : String) {fuel : Nat}
    (hfuel : (fieldText key text).toList.length ≤ fuel) (acc : List (Value × Value))
    {rest : List Char} (hrest : Follows rest) :
    readFields (fuel + 1) acc ((fieldText key text).toList ++ rest) =
      match skipSpace rest with
      | '\x7d' :: rest => .ok (.map (Value.put acc (.str key) v), rest)
      | ',' :: rest => readFields fuel (Value.put acc (.str key) v) (skipSpace rest)
      | rest => fail .comma rest := by
  rw [toList_fieldText, List.length_cons, List.length_append] at hfuel
  simp only [List.length_cons] at hfuel
  have hskip : skipSpace (' ' :: (text.toList ++ rest)) = text.toList ++ rest :=
    (h.begins.append rest).skipSpace_blank
  rw [toList_fieldText, List.cons_append, List.append_assoc, readFields, List.cons_append,
    readString_escape]
  -- the colon comes next, and then the value
  change (readValue fuel (skipSpace (' ' :: (text.toList ++ rest))) >>= fun p => _) = _
  rw [hskip, h.read (Nat.le_trans (by omega) hfuel) hrest, String.ofList_toList]
  rfl

/-- The texts of the fields of an object that is not empty.  None comes under a key that was read
before. -/
structure FieldsTold (parts : List String) (fields : List (String × Value)) : Prop where
  printed : ∀ depth, printEntries? .line .none depth (entriesOf fields) = some parts
  nonempty : parts ≠ []
  begins : Begins (Value.joinTexts ", " parts).toList
  read : ∀ (fuel : Nat) (done : List (String × Value)) (rest : List Char),
    (Value.joinTexts ", " parts).toList.length < fuel →
    ((done ++ fields).map Prod.fst).Nodup →
    readFields fuel (entriesOf done) ((Value.joinTexts ", " parts).toList ++ '\x7d' :: rest) =
      .ok (Value.ofFields (done ++ fields), rest)

theorem begins_fieldText (key text : String) : Begins (fieldText key text).toList := by
  rw [toList_fieldText]
  exact ⟨'"', _, rfl, by decide⟩

theorem not_mem_of_nodup {done fields : List (String × Value)} {key : String} {v : Value}
    (h : ((done ++ (key, v) :: fields).map Prod.fst).Nodup) : key ∉ done.map Prod.fst := by
  rw [List.map_append, List.nodup_append] at h
  exact fun hkey => h.2.2 key hkey key List.mem_cons_self rfl

theorem FieldsTold.singleton {text : String} {v : Value} (h : Tells text v) (key : String) :
    FieldsTold [fieldText key text] [(key, v)] where
  printed depth := by
    rw [entriesOf, List.map_cons, printEntries?, h.printed]
    rfl
  nonempty := nofun
  begins := begins_fieldText key text
  read
    | fuel + 1, done, rest, hfuel, hkeys => by
      have hrest : Follows ('\x7d' :: rest) := follows_cons (.inr (.inr rfl)) rest
      rw [Value.joinTexts, readFields_field h key (Nat.le_of_lt_succ hfuel) _ hrest]
      have hput := put_entriesOf v (not_mem_of_nodup hkeys)
      exact congrArg (fun es => Except.ok (Value.map es, rest)) hput

theorem FieldsTold.cons {text : String} {v : Value} {parts : List String}
    {fields : List (String × Value)} (h : Tells text v) (key : String)
    (hs : FieldsTold parts fields) :
    FieldsTold (fieldText key text :: parts) ((key, v) :: fields) where
  printed depth := by
    have hprinted := hs.printed depth
    rw [entriesOf] at hprinted
    rw [entriesOf, List.map_cons, printEntries?, h.printed, hprinted]
    rfl
  nonempty := nofun
  begins := by
    rw [joinTexts_cons _ hs.nonempty]
    exact (begins_fieldText key text).append _
  read
    | fuel + 1, done, rest, hfuel, hkeys => by
      rw [joinTexts_cons _ hs.nonempty] at hfuel ⊢
      rw [List.length_append, List.length_cons, List.length_cons] at hfuel
      rw [List.append_assoc, List.cons_append, List.cons_append,
        readFields_field h key (by omega) _ (follows_cons (.inl rfl) _),
        put_entriesOf v (not_mem_of_nodup hkeys)]
      have hshift : done ++ (key, v) :: fields = done ++ [(key, v)] ++ fields :=
        List.append_cons done (key, v) fields
      rw [hshift] at hkeys ⊢
      change readFields fuel _ (skipSpace _) = _
      rw [(hs.begins.append _).skipSpace_blank, hs.read fuel _ rest (by omega) hkeys]

theorem tells_fields {parts : List String} {fields : List (String × Value)}
    (h : FieldsTold parts fields) (hkeys : (fields.map Prod.fst).Nodup) :
    Tells ("\x7b" ++ Value.joinTexts ", " parts ++ "\x7d") (Value.ofFields fields) := by
  refine tells_enclosed (o := '\x7b') (c := '\x7d') rfl rfl (by decide) (by decide)
    (fun depth => ?_) fun fuel rest hfuel => ?_
  · have hprinted := h.printed (depth + 1)
    rw [entriesOf] at hprinted
    rw [Value.ofFields, printAt?, hprinted, Option.map_some, enclose_line h.nonempty]
  · have hbegins := h.begins.append ('\x7d' :: rest)
    have hread := h.read fuel [] rest hfuel hkeys
    rw [readValue, hbegins.skipSpace_self]
    obtain ⟨c, cs, hcs, -, -, hbracket⟩ := hbegins
    rw [hcs] at hread ⊢
    split
    · next h' => exact absurd (List.cons.inj h').1 hbracket
    · exact hread

theorem tells_empty : Tells ("\x7b" ++ "" ++ "\x7d") (.map []) :=
  tells_enclosed (o := '\x7b') (c := '\x7d') rfl rfl (by decide) (by decide) (fun _ => rfl)
    fun _ _ _ => rfl

/-! ## Documents -/

/-- Documents that their text tells exactly.  An integer must not have more digits than may be
read, and no object has two fields under one key.  Floating-point numbers are left out: their text
is another matter. -/
inductive Faithful : Value → Prop where
  | null : Faithful .null
  | bool (b : Bool) : Faithful (.bool b)
  | int (n : Int) (h : n.natAbs < Nat.pow 10 Number.maxDigits) : Faithful (.int n)
  | str (s : String) : Faithful (.str s)
  | list (xs : List Value) (h : ∀ x ∈ xs, Faithful x) : Faithful (.list xs)
  | fields (fields : List (String × Value)) (hkeys : (fields.map Prod.fst).Nodup)
      (h : ∀ f ∈ fields, Faithful f.2) : Faithful (Value.ofFields fields)

theorem exists_itemsTold {x : Value} {xs : List Value} (h : ∀ y ∈ x :: xs, ∃ text, Tells text y) :
    ∃ texts, ItemsTold texts (x :: xs) := by
  induction xs generalizing x with
  | nil =>
    obtain ⟨text, hx⟩ := h x List.mem_cons_self
    exact ⟨_, .singleton hx⟩
  | cons y ys ih =>
    obtain ⟨text, hx⟩ := h x List.mem_cons_self
    obtain ⟨texts, hys⟩ := ih fun z hz => h z (List.mem_cons_of_mem x hz)
    exact ⟨_, .cons hx hys⟩

theorem exists_fieldsTold {f : String × Value} {fields : List (String × Value)}
    (h : ∀ g ∈ f :: fields, ∃ text, Tells text g.2) : ∃ parts, FieldsTold parts (f :: fields) := by
  induction fields generalizing f with
  | nil =>
    obtain ⟨text, hf⟩ := h f List.mem_cons_self
    exact ⟨_, .singleton hf f.1⟩
  | cons g fields ih =>
    obtain ⟨text, hf⟩ := h f List.mem_cons_self
    obtain ⟨parts, hfields⟩ := ih fun e he => h e (List.mem_cons_of_mem f he)
    exact ⟨_, .cons hf f.1 hfields⟩

theorem Faithful.tells {v : Value} (h : Faithful v) : ∃ text, Tells text v := by
  induction h with
  | null => exact ⟨_, tells_null⟩
  | bool b =>
    cases b with
    | true => exact ⟨_, tells_true⟩
    | false => exact ⟨_, tells_false⟩
  | int n hn => exact ⟨_, tells_int hn⟩
  | str s => exact ⟨_, tells_str s⟩
  | list xs _ ih =>
    cases xs with
    | nil => exact ⟨_, tells_nil⟩
    | cons x xs =>
      obtain ⟨texts, hxs⟩ := exists_itemsTold ih
      exact ⟨_, tells_list hxs⟩
  | fields fields hkeys _ ih =>
    cases fields with
    | nil => exact ⟨_, tells_empty⟩
    | cons f fields =>
      obtain ⟨parts, hfields⟩ := exists_fieldsTold ih
      exact ⟨_, tells_fields hfields hkeys⟩

theorem Tells.readAll {text : String} {v : Value} (h : Tells text v) :
    Json.readAll text.toList = .ok v := by
  have hfuel : text.toList.length ≤ 2 * text.toList.length + 2 := by omega
  have hread : readValue (2 * text.toList.length + 2) (text.toList ++ []) = .ok (v, []) :=
    h.read hfuel nofun
  rw [List.append_nil] at hread
  have hskip := h.begins.skipSpace_self
  obtain ⟨c, cs, htext, hc, -⟩ := h.begins
  rw [htext] at hread hskip ⊢
  rw [Json.readAll, hskip, hread]
  · rfl
  · intro rest hmark
    obtain ⟨rfl, -⟩ := List.cons.inj hmark
    exact absurd hc (by decide)

theorem isBlank_of_isVisible {c : Char} (h : isVisible c = true) : Text.isBlank c = false := by
  simp only [isVisible, Bool.and_eq_true, decide_eq_true_eq] at h
  simp [Text.isBlank, Text.inRanges, Text.blanks]
  omega

/-- Nothing is cut off a text that begins and ends with visible characters. -/
theorem Tells.trim {text : String} {v : Value} (h : Tells text v) :
    Text.trim text.toList = text.toList := by
  obtain ⟨c, cs, hbegins, hc, -⟩ := h.begins
  obtain ⟨ds, d, hends, hd⟩ := h.ends
  have hfront : text.toList.dropWhile Text.isBlank = text.toList := by
    rw [hbegins, List.dropWhile_cons, isBlank_of_isVisible hc]
    rfl
  have hback : text.toList.reverse.dropWhile Text.isBlank = text.toList.reverse := by
    rw [hends, List.reverse_append, List.reverse_singleton, List.singleton_append,
      List.dropWhile_cons, isBlank_of_isVisible hd]
    rfl
  rw [Text.trim, hfront, hback, List.reverse_reverse]

/-- Reading undoes printing: a document has a text, and the descriptor of that text is the
document. -/
theorem Faithful.load_print {v : Value} (h : Faithful v) :
    ∃ text, print? v = some text ∧ Avro.Descriptor.load (some text) = .ok v := by
  obtain ⟨text, htext⟩ := h.tells
  have hread : Json.read text = .ok v := by rw [read, htext.readAll]
  have hempty : text.toList.isEmpty = false := by
    obtain ⟨c, cs, hbegins, -⟩ := htext.begins
    rw [hbegins]
    rfl
  refine ⟨text, htext.printed 0, ?_⟩
  rw [Avro.Descriptor.load, htext.trim, hempty, String.ofList_toList, hread]
  rfl

end Json
end StreamTable
