/-
Manifests and the names in them.  A manifest with one more version lists the same versions and that
one, and counts on from it.  Data files of different versions have different names, and a manifest's
entry leads to the file in the table's data folder.
-/
import StreamTable.Proofs.Value.Entries
import StreamTable.Store.Table

namespace StreamTable

namespace Store
namespace Manifest

open Value

/-- A manifest with one more version lists that version last and counts on from it. -/
theorem withVersion_lists {m m' e : Value} {version : Int} (h : withVersion m version e = .ok m') :
    currentVersion m' = .ok (.int version) ∧
      ∃ vs, versions m = .ok vs ∧ versions m' = .ok (vs ++ [e]) := by
  cases m with
  | map es =>
    rw [withVersion] at h
    split at h
    · next vs hf =>
      cases h
      have hversions : field? (put (put es (.str "current_version") (.int version))
          (.str "versions") (.list (vs ++ [e]))) "versions" = some (.list (vs ++ [e])) :=
        field?_put_same _ _ _
      have hcurrent : field? (put (put es (.str "current_version") (.int version))
          (.str "versions") (.list (vs ++ [e]))) "current_version" = some (.int version) := by
        rw [field?_put_other _ _ (by decide)]
        exact field?_put_same _ _ _
      refine ⟨?_, vs, ?_, ?_⟩
      · simp only [currentVersion, part, hcurrent]
      · simp only [versions, part, hf]
        rfl
      · simp only [versions, part, hversions]
        rfl
    · cases h
    · cases h
  | _ => cases h

theorem nextVersion_of_current {m : Value} {version : Int}
    (h : currentVersion m = .ok (.int version)) : nextVersion m = .ok (version + 1) := by
  rw [nextVersion, h]
  rfl

/-- The manifest of a table without commits. -/
theorem empty_lists (table : String) :
    currentVersion (empty table) = .ok (.int 0) ∧ versions (empty table) = .ok [] := by
  constructor
  · simp [currentVersion, part, empty, ofFields, field?, lookup, same]
  · simp [versions, part, empty, ofFields, field?, lookup, same, elements?]
    rfl

/-! ## Names of data files -/

/-- The digits of a version's number, with zeros before them. -/
def digitsOf (n : Int) : List Char :=
  List.replicate (8 - (if n < 0 then "-" else "").length - (toString n.natAbs).length) '0' ++
    Nat.toDigits 10 n.natAbs

theorem versionText_toList (n : Int) :
    (versionText n).toList = 'v' :: ((if n < 0 then ['-'] else []) ++ digitsOf n) := by
  by_cases hn : n < 0
  · simp [versionText, digitsOf, hn, Nat.toString_eq_repr, Nat.toList_repr]
  · simp [versionText, digitsOf, hn, Nat.toString_eq_repr, Nat.toList_repr]

theorem isDigit_of_mem_digitsOf {n : Int} {c : Char} (h : c ∈ digitsOf n) : c.isDigit = true := by
  obtain h | h := List.mem_append.mp h
  · rw [(List.mem_replicate.mp h).2]
    rfl
  · exact Nat.isDigit_of_mem_toDigits (by decide) (by decide) h

theorem ofDigitChars_digitsOf (n : Int) : Nat.ofDigitChars 10 (digitsOf n) 0 = n.natAbs := by
  rw [digitsOf, Nat.ofDigitChars_append, Nat.ofDigitChars_replicate_zero, Nat.mul_zero,
    Nat.ofDigitChars_ten_toDigits]

theorem minus_notMem_digitsOf (n : Int) : '-' ∉ digitsOf n := by
  intro h
  have := isDigit_of_mem_digitsOf h
  exact absurd this (by decide)

theorem versionText_inj {m n : Int} (h : versionText m = versionText n) : m = n := by
  have hlist := congrArg String.toList h
  rw [versionText_toList, versionText_toList, List.cons.injEq] at hlist
  have habs (hd : digitsOf m = digitsOf n) : m.natAbs = n.natAbs := by
    rw [← ofDigitChars_digitsOf m, hd, ofDigitChars_digitsOf]
  by_cases hm : m < 0 <;> by_cases hn : n < 0
  · rw [if_pos hm, if_pos hn] at hlist
    have := habs (List.append_cancel_left hlist.2)
    omega
  · rw [if_pos hm, if_neg hn, List.nil_append] at hlist
    refine absurd ?_ (minus_notMem_digitsOf n)
    rw [← hlist.2]
    exact List.mem_cons_self
  · rw [if_neg hm, if_pos hn, List.nil_append] at hlist
    refine absurd ?_ (minus_notMem_digitsOf m)
    rw [hlist.2]
    exact List.mem_cons_self
  · rw [if_neg hm, if_neg hn] at hlist
    have := habs hlist.2
    omega

theorem hexPadded_length (width n : Nat) : (Text.hexPadded width n).length = width := by
  induction width generalizing n with
  | zero => rfl
  | succ width ih => rw [Text.hexPadded, List.length_append, ih, List.length_singleton]

theorem slash_notMem_hexPadded (width n : Nat) : '/' ∉ Text.hexPadded width n := by
  induction width generalizing n with
  | zero => exact List.not_mem_nil
  | succ width ih =>
    rw [Text.hexPadded, List.mem_append, List.mem_singleton]
    rintro (h | h)
    · exact ih _ h
    · have hchars : ∀ i < 16, '/' ≠ Text.hexChar i := by decide
      exact hchars (n % 16) (Nat.mod_lt n (by decide)) h

theorem dataName_toList (version : Int) (serial : Nat) :
    (dataName version serial).toList = (versionText version).toList ++
      ('-' :: (Text.hexPadded 12 serial ++ ['.', 'a', 'v', 'r', 'o'])) := by
  simp [dataName]

/-- Data files of different versions have different names. -/
theorem dataName_inj {m n : Int} {i j : Nat} (h : dataName m i = dataName n j) : m = n := by
  have hlist := congrArg String.toList h
  rw [dataName_toList, dataName_toList] at hlist
  have hlength : ('-' :: (Text.hexPadded 12 i ++ ['.', 'a', 'v', 'r', 'o'])).length =
      ('-' :: (Text.hexPadded 12 j ++ ['.', 'a', 'v', 'r', 'o'])).length := by
    simp [hexPadded_length]
  exact versionText_inj (String.toList_inj.mp (List.append_inj' hlist hlength).1)

theorem slash_notMem_dataName (version : Int) (serial : Nat) :
    '/' ∉ (dataName version serial).toList := by
  rw [dataName_toList, versionText_toList]
  intro h
  have hdigits : '/' ∉ digitsOf version := fun h => absurd (isDigit_of_mem_digitsOf h) (by decide)
  have hhex := slash_notMem_hexPadded 12 serial
  by_cases hn : version < 0
  · simp [hn, hdigits, hhex] at h
  · simp [hn, hdigits, hhex] at h

end Manifest

namespace Path

theorem split_of_notMem {cs : List Char} (h : '/' ∉ cs) : split cs = [cs] := by
  induction cs with
  | nil => rfl
  | cons c cs ih =>
    have hc : c ≠ '/' := fun hc => h (hc ▸ List.mem_cons_self)
    have hrest := ih fun hm => h (List.mem_cons_of_mem c hm)
    rw [split, hrest]
    exact hc

end Path

namespace Table

/-- The place that a version's entry in the manifest leads to. -/
theorem filePath_entry (t : Table) (version : Int) (serial rows : Nat) (fingerprint : String)
    (committed : DateTime) :
    t.filePath (Manifest.entry version (Manifest.dataName version serial) rows fingerprint
      committed) = .ok (t.dataFolder.child (Manifest.dataName version serial)) := by
  have hfile : Manifest.part (Manifest.entry version (Manifest.dataName version serial) rows
      fingerprint committed) "file" =
      .ok (.str ("data/" ++ Manifest.dataName version serial)) := by
    simp [Manifest.part, Manifest.entry, Value.ofFields, Value.field?, Value.lookup, Value.same]
  have hname : ∃ rest, (Manifest.dataName version serial).toList = 'v' :: rest := by
    rw [Manifest.dataName_toList, Manifest.versionText_toList]
    exact ⟨_, rfl⟩
  have hidle : Path.isIdle (Manifest.dataName version serial) = false := by
    obtain ⟨rest, hrest⟩ := hname
    have hempty : Manifest.dataName version serial ≠ "" := by
      intro h
      rw [h] at hrest
      cases hrest
    have hdot : Manifest.dataName version serial ≠ "." := by
      intro h
      rw [h] at hrest
      cases hrest
    simp [Path.isIdle, hempty, hdot]
  have hsplit : Path.split ("data/" ++ Manifest.dataName version serial).toList =
      [['d', 'a', 't', 'a'], (Manifest.dataName version serial).toList] := by
    rw [String.toList_append]
    show Path.split ('d' :: 'a' :: 't' :: 'a' :: '/' :: (Manifest.dataName version serial).toList) = _
    simp [Path.split, Path.split_of_notMem (Manifest.slash_notMem_dataName version serial)]
  have hpath : Path.ofText ("data/" ++ Manifest.dataName version serial) =
      ⟨false, ["data", Manifest.dataName version serial]⟩ := by
    have hdata : Path.isIdle "data" = false := by decide
    rw [Path.ofText, hsplit, String.toList_append]
    simp [hidle, hdata]
  simp only [filePath, hfile]
  show Except.ok (t.folder.join ("data/" ++ Manifest.dataName version serial)) = _
  rw [Path.join, hpath]
  simp [dataFolder, Path.child]

end Table
end Store
end StreamTable
