/-
Strings of JSON text.  A string is written in ASCII: a character beyond it stands as its code unit,
or as the two units of its pair.  Reading gathers the pieces first and joins the pairs afterwards,
so what is read is traced through the pieces that each character is spelt with.
-/
import Mathlib.Tactic.SplitIfs
import StreamTable.Json.Printer
import StreamTable.Json.Reader

namespace StreamTable
namespace Json

/-! ## Code units -/

theorem hexDigit?_hexChar {n : Nat} (h : n < 16) : Text.hexDigit? (Text.hexChar n) = some n := by
  have hall : ∀ n < 16, Text.hexDigit? (Text.hexChar n) = some n := by decide
  exact hall n h

/-- Four digits tell a code unit. -/
theorem unit?_hexPadded {n : Nat} (h : n < 0x10000) :
    ∃ a b c d, Text.hexPadded 4 n = [a, b, c, d] ∧ unit? a b c d = some n := by
  refine ⟨_, _, _, _, rfl, ?_⟩
  rw [unit?, hexDigit?_hexChar (by omega), hexDigit?_hexChar (by omega),
    hexDigit?_hexChar (by omega), hexDigit?_hexChar (by omega)]
  simp only [Option.bind_eq_bind, Option.bind_some, Option.some.injEq]
  omega

/-- A character is no half of a pair. -/
theorem not_half (c : Char) : isHighUnit c.toNat = false ∧ isLowUnit c.toNat = false := by
  have h : c.toNat.isValidChar := c.valid
  simp only [Nat.isValidChar] at h
  simp only [isHighUnit, isLowUnit, Bool.and_eq_false_iff, decide_eq_false_iff_not]
  omega

theorem toNat_lt (c : Char) : c.toNat < 0x110000 := by
  have h : c.toNat.isValidChar := c.valid
  simp only [Nat.isValidChar] at h
  omega

theorem charOfUnit_toNat (c : Char) : charOfUnit c.toNat = c := by
  rw [charOfUnit, (not_half c).1, (not_half c).2]
  exact Char.ofNat_toNat c

/-- The pieces that a character is written with: itself, its code unit, or the units of its
pair. -/
inductive Spelling (c : Char) : List Piece → Prop where
  | plain : Spelling c [.char c]
  | unit : Spelling c [.unit c.toNat]
  | pair (h : 0x10000 ≤ c.toNat) :
    Spelling c [.unit (0xD800 + (c.toNat - 0x10000) / 0x400),
      .unit (0xDC00 + (c.toNat - 0x10000) % 0x400)]

theorem joinUnits_unit {n : Nat} (h : isHighUnit n = false) (ps : List Piece) :
    joinUnits (.unit n :: ps) = charOfUnit n :: joinUnits ps := by
  match ps with
  | [] => rfl
  | .char c :: ps => rfl
  | .unit low :: ps =>
    rw [joinUnits, h]
    rfl

theorem Spelling.joinUnits {c : Char} {ps : List Piece} (h : Spelling c ps) (rest : List Piece) :
    joinUnits (ps ++ rest) = c :: joinUnits rest := by
  cases h with
  | plain => rfl
  | unit => rw [List.singleton_append, joinUnits_unit (not_half c).1, charOfUnit_toNat]
  | pair hc =>
    have hlt := toNat_lt c
    have hhigh : isHighUnit (0xD800 + (c.toNat - 0x10000) / 0x400) = true := by
      simp only [isHighUnit, Bool.and_eq_true, decide_eq_true_eq]
      omega
    have hlow : isLowUnit (0xDC00 + (c.toNat - 0x10000) % 0x400) = true := by
      simp only [isLowUnit, Bool.and_eq_true, decide_eq_true_eq]
      omega
    have hchar : charOfPair (0xD800 + (c.toNat - 0x10000) / 0x400)
        (0xDC00 + (c.toNat - 0x10000) % 0x400) = c := by
      have hsum : 0x10000 + (0xD800 + (c.toNat - 0x10000) / 0x400 - 0xD800) * 0x400 +
          (0xDC00 + (c.toNat - 0x10000) % 0x400 - 0xDC00) = c.toNat := by omega
      rw [charOfPair, hsum, Char.ofNat_toNat]
    rw [List.cons_append, List.singleton_append, Json.joinUnits, hhigh, hlow, hchar]
    rfl

/-! ## Reading what was written -/

theorem readPieces_unitText {n : Nat} (h : n < 0x10000) (opening : Nat) (acc : List Piece)
    {rest : List Char} (hrest : rest ≠ []) :
    readPieces opening acc (unitText n ++ rest) = readPieces opening (.unit n :: acc) rest := by
  obtain ⟨a, b, c, d, hdigits, hunit⟩ := unit?_hexPadded h
  have hempty : rest.isEmpty = false := List.isEmpty_eq_false_iff.mpr hrest
  rw [unitText, hdigits]
  simp only [List.cons_append, List.nil_append]
  rw [readPieces, hunit]
  simp only [hempty, Bool.false_eq_true, if_false]

theorem readPieces_plain {c : Char} (hquote : c ≠ '"') (hback : c ≠ '\\') (h : 0x20 ≤ c.toNat)
    (opening : Nat) (acc : List Piece) (rest : List Char) :
    readPieces opening acc (c :: rest) = readPieces opening (.char c :: acc) rest := by
  rw [readPieces, if_neg (Nat.not_lt.mpr h)]
  · exact hquote
  · exact fun hc _ => hback hc
  · exact fun _ _ _ _ _ hc _ => hback hc
  · exact fun _ hc _ => hback hc
  · exact fun _ _ hc _ => hback hc

/-- A letter after a backslash that stands for a character. -/
theorem readPieces_unescape {c u : Char} (hu : unescape? c = some u) (opening : Nat)
    (acc : List Piece) (rest : List Char) :
    readPieces opening acc ('\\' :: c :: rest) = readPieces opening (.char u :: acc) rest := by
  have hc : c ≠ 'u' := by
    rintro rfl
    cases hu
  rw [readPieces, hu]
  · exact fun _ _ _ _ _ hc' _ => hc hc'
  · exact fun hc' => hc hc'

/-- How a character is written: by a letter after a backslash, as it is, or by code units. -/
theorem escapeChar_cases (c : Char) :
    (∃ letter, unescape? letter = some c ∧ escapeChar c = ['\\', letter]) ∨
    (c ≠ '"' ∧ c ≠ '\\' ∧ 0x20 ≤ c.toNat ∧ c.toNat < 0x7F ∧ escapeChar c = [c]) ∨
    (c.toNat < 0x10000 ∧ escapeChar c = unitText c.toNat) ∨
    (0x10000 ≤ c.toNat ∧ escapeChar c = unitText (0xD800 + (c.toNat - 0x10000) / 0x400) ++
      unitText (0xDC00 + (c.toNat - 0x10000) % 0x400)) := by
  unfold escapeChar
  split_ifs with hquote hback
  iterate 7
    · subst_vars
      exact .inl ⟨_, rfl, rfl⟩
  dsimp only
  split_ifs with hprint hbmp
  · simp only [Bool.and_eq_true, decide_eq_true_eq] at hprint
    exact .inr (.inl ⟨hquote, hback, hprint.1, hprint.2, rfl⟩)
  · exact .inr (.inr (.inl ⟨hbmp, rfl⟩))
  · exact .inr (.inr (.inr ⟨Nat.not_lt.mp hbmp, rfl⟩))

/-- However a character is written, its pieces are what is read. -/
theorem readPieces_escapeChar (c : Char) : ∃ ps, Spelling c ps ∧
    ∀ (opening : Nat) (acc : List Piece) {rest : List Char}, rest ≠ [] →
      readPieces opening acc (escapeChar c ++ rest) =
        readPieces opening (ps.reverse ++ acc) rest := by
  obtain ⟨letter, hletter, hc⟩ | ⟨hquote, hback, hprint, -, hc⟩ | ⟨hbmp, hc⟩ | ⟨hastral, hc⟩ :=
    escapeChar_cases c
  · rw [hc]
    exact ⟨_, .plain, fun opening acc rest _ => readPieces_unescape hletter opening acc rest⟩
  · rw [hc]
    exact ⟨_, .plain, fun opening acc rest _ =>
      readPieces_plain hquote hback hprint opening acc rest⟩
  · rw [hc]
    exact ⟨_, .unit, fun opening acc _ hrest => readPieces_unitText hbmp opening acc hrest⟩
  · have hlt := toNat_lt c
    refine ⟨_, .pair hastral, fun opening acc rest hrest => ?_⟩
    have hmore : unitText (0xDC00 + (c.toNat - 0x10000) % 0x400) ++ rest ≠ [] := nofun
    rw [hc, List.append_assoc, readPieces_unitText (by omega) opening acc hmore,
      readPieces_unitText (by omega) opening _ hrest]
    rfl

theorem readPieces_escape (cs : List Char) : ∃ ps, joinUnits ps = cs ∧
    ∀ (opening : Nat) (acc : List Piece) (rest : List Char),
      readPieces opening acc (escape cs ++ '"' :: rest) = .ok (acc.reverse ++ ps, rest) := by
  induction cs with
  | nil =>
    refine ⟨[], rfl, fun opening acc rest => ?_⟩
    rw [List.append_nil]
    exact readPieces.eq_2 opening acc rest
  | cons c cs ih =>
    obtain ⟨ps, hps, hread⟩ := ih
    obtain ⟨qs, hqs, hchar⟩ := readPieces_escapeChar c
    refine ⟨qs ++ ps, by rw [hqs.joinUnits, hps], fun opening acc rest => ?_⟩
    have hmore : escape cs ++ '"' :: rest ≠ [] := List.append_ne_nil_of_right_ne_nil _ nofun
    rw [escape, List.flatMap_cons, List.append_assoc]
    rw [← escape, hchar opening acc hmore, hread]
    simp only [List.reverse_append, List.reverse_reverse, List.append_assoc]

/-- A string is read as it was written, to its closing quote. -/
theorem readString_escape (cs : List Char) (opening : Nat) (rest : List Char) :
    readString opening (escape cs ++ '"' :: rest) = .ok (cs, rest) := by
  obtain ⟨ps, hps, hread⟩ := readPieces_escape cs
  rw [readString, hread]
  exact congrArg (fun cs => Except.ok (cs, rest)) hps

end Json
end StreamTable
