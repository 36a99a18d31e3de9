/-
Entries of objects.  A text is equal to itself alone, so a key that is a text finds what was put
under it, and what is put under another one does not matter to it.
-/
import StreamTable.Value.Equality

namespace StreamTable
namespace Value

theorem same_str {s : String} {v : Value} : (Value.str s).same v = true ↔ v = .str s := by
  constructor
  · intro h
    cases v with
    | str t => rw [same, beq_iff_eq] at h; rw [h]
    | _ => simp [same, compareNumbers?, asInt?] at h
  · rintro rfl
    rw [same, beq_iff_eq]

theorem isText_eq_same (v : Value) (s : String) : v.isText s = (Value.str s).same v := by
  rw [Bool.eq_iff_iff, same_str]
  cases v <;> simp [isText]

variable {es : List (Value × Value)} {k k' : String} {v : Value}

theorem field?_nil (k : String) : field? [] k = none := rfl

theorem field?_cons (k' v : Value) (es : List (Value × Value)) (k : String) :
    field? ((k', v) :: es) k = if k'.isText k then some v else field? es k := by
  rw [isText_eq_same, field?, lookup, List.find?_cons]
  cases (Value.str k).same k' <;> rfl

theorem field?_entry (k' : String) (v : Value) (es : List (Value × Value)) (k : String) :
    field? (entry k' v :: es) k = if k' = k then some v else field? es k := by
  rw [entry, field?_cons, isText]
  simp only [beq_iff_eq]

theorem field?_append (es es' : List (Value × Value)) (k : String) :
    field? (es ++ es') k = (field? es k).or (field? es' k) := by
  simp only [field?, lookup, List.find?_append]
  cases es.find? fun e => (Value.str k).same e.1 <;> rfl

theorem field?_eq_none (h : ∀ e ∈ es, e.1.isText k = false) : field? es k = none := by
  rw [field?, lookup, Option.map_eq_none_iff, List.find?_eq_none]
  intro e he
  rw [← isText_eq_same, h e he]
  nofun

/-- Entries under other keys do not matter to a key. -/
theorem field?_filter {p : Value × Value → Bool} (hp : ∀ e ∈ es, e.1.isText k = true → p e = true) :
    field? (es.filter p) k = field? es k := by
  induction es with
  | nil => rfl
  | cons e es ih =>
    obtain ⟨k', v⟩ := e
    have hes := ih fun e he => hp e (List.mem_cons_of_mem _ he)
    by_cases he : p (k', v) = true
    · rw [List.filter_cons_of_pos he, field?_cons, field?_cons, hes]
    · have hk : k'.isText k = false :=
        Bool.eq_false_iff.mpr fun hk => he (hp _ List.mem_cons_self hk)
      rw [List.filter_cons_of_neg he, field?_cons, hk, hes]
      rfl

/-- A key finds the first entry that it is the key of. -/
theorem field?_eq_find? (es : List (Value × Value)) (k : String) :
    field? es k = (es.find? fun e => e.1.isText k).map (·.2) := by
  simp only [field?, lookup, isText_eq_same]

/-- No second entry comes under a key when one is put. -/
theorem countP_put_le (h : es.countP (fun e => e.1.isText k) ≤ 1) (k' v : Value) :
    (put es k' v).countP (fun e => e.1.isText k) ≤ 1 := by
  unfold put
  by_cases hany : es.any (fun e => k'.same e.1) = true
  · have hkeys : (fun e : Value × Value => e.1.isText k) ∘
        (fun e => if k'.same e.1 then (e.1, v) else e) = fun e => e.1.isText k := by
      funext e
      by_cases hs : k'.same e.1 = true <;> simp [hs]
    rw [if_pos hany, List.countP_map, hkeys]
    exact h
  · rw [if_neg hany, List.countP_append]
    by_cases hk : k'.isText k = true
    · have hnone : es.countP (fun e => e.1.isText k) = 0 := by
        refine List.countP_eq_zero.mpr fun e he hd => hany ?_
        refine List.any_eq_true.mpr ⟨e, he, ?_⟩
        have hkey : ∀ x : Value, x.isText k = true → x = .str k := fun x hx =>
          same_str.mp ((isText_eq_same x k).symm.trans hx)
        rw [hkey k' hk, hkey e.1 hd]
        exact same_str.mpr rfl
      rw [hnone]
      simp [hk]
    · simpa [List.countP_cons, hk] using h

/-- The values after one is put are those before, or that one. -/
theorem mem_put {e : Value × Value} {k' v : Value} (he : e ∈ put es k' v) :
    e.2 = v ∨ ∃ e₀ ∈ es, e.2 = e₀.2 := by
  unfold put at he
  by_cases hany : es.any (fun e => k'.same e.1) = true
  · rw [if_pos hany] at he
    obtain ⟨e₀, he₀, rfl⟩ := List.mem_map.mp he
    by_cases hs : k'.same e₀.1 = true
    · exact .inl (by rw [if_pos hs])
    · exact .inr ⟨e₀, he₀, by rw [if_neg hs]⟩
  · rw [if_neg hany] at he
    obtain he | he := List.mem_append.mp he
    · exact .inr ⟨e, he, rfl⟩
    · exact .inl (by rw [List.mem_singleton.mp he])

theorem field?_put_same (es : List (Value × Value)) (k : String) (v : Value) :
    field? (put es (.str k) v) k = some v := by
  rw [field?, lookup, put]
  by_cases hany : es.any (fun e => (Value.str k).same e.1) = true
  · rw [if_pos hany, List.find?_map]
    obtain ⟨e, he, hsame⟩ := List.any_eq_true.mp hany
    have hsome : (es.find? fun e => (Value.str k).same e.1).isSome :=
      List.find?_isSome.mpr ⟨e, he, hsame⟩
    obtain ⟨e', he'⟩ := Option.isSome_iff_exists.mp hsome
    have hkeys : ((fun e : Value × Value => (Value.str k).same e.1) ∘
        fun e => if (Value.str k).same e.1 = true then (e.1, v) else e) =
        fun e => (Value.str k).same e.1 := by
      funext e
      by_cases hs : (Value.str k).same e.1 = true <;> simp [hs]
    have hsame' : (Value.str k).same e'.1 = true := by simpa using List.find?_some he'
    rw [hkeys, he', Option.map_some, Option.map_some, if_pos hsame']
  · rw [if_neg hany, List.find?_append]
    have hnone : (es.find? fun e => (Value.str k).same e.1) = none := by
      rw [List.find?_eq_none]
      intro e he hs
      exact hany (List.any_eq_true.mpr ⟨e, he, hs⟩)
    rw [hnone]
    simp [same]

theorem field?_put_other (es : List (Value × Value)) (v : Value) (h : k' ≠ k) :
    field? (put es (.str k) v) k' = field? es k' := by
  have hne : (Value.str k').same (.str k) = false := by
    rw [Bool.eq_false_iff]
    intro hs
    exact h (Value.str.inj (same_str.mp hs)).symm
  rw [field?, field?, lookup, lookup, put]
  by_cases hany : es.any (fun e => (Value.str k).same e.1) = true
  · rw [if_pos hany, List.find?_map]
    have hkeys : ((fun e : Value × Value => (Value.str k').same e.1) ∘
        fun e => if (Value.str k).same e.1 = true then (e.1, v) else e) =
        fun e => (Value.str k').same e.1 := by
      funext e
      by_cases hs : (Value.str k).same e.1 = true <;> simp [hs]
    rw [hkeys]
    cases he : es.find? fun e => (Value.str k').same e.1 with
    | none => rfl
    | some e =>
      have hs : (Value.str k').same e.1 = true := by simpa using List.find?_some he
      have hkey : (Value.str k).same e.1 = false := by
        rw [same_str.mp hs, Bool.eq_false_iff]
        intro hs'
        exact h (Value.str.inj (same_str.mp hs'))
      simp [hkey]
  · rw [if_neg hany, List.find?_append]
    cases es.find? fun e => (Value.str k').same e.1 with
    | none => simp [hne]
    | some e => rfl

end Value
end StreamTable
