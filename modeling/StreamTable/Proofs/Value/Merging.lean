/-
Entries that are written over others, one after another.  Under a text stands what was written
last, or else what stood there before; and texts and other keys have nothing to do with each other.
-/
import Mathlib.Data.List.Induction
import StreamTable.Proofs.Value.Entries

namespace StreamTable
namespace Value

theorem same_text_of_not_isStr {k : Value} (h : k.isStr = false) (s : String) :
    (Value.str s).same k = false ∧ k.same (.str s) = false := by
  cases k <;> simp_all [isStr, same, compareNumbers?, asInt?]

theorem eq_str_of_isStr {k : Value} (h : k.isStr = true) : ∃ s, k = .str s := by
  cases k with
  | str s => exact ⟨s, rfl⟩
  | _ => cases h

/-- What becomes of an entry when a value is put under a key that is there already. -/
def overwrite (k v : Value) (e : Value × Value) : Value × Value :=
  if k.same e.1 then (e.1, v) else e

theorem overwrite_fst (k v : Value) (e : Value × Value) : (overwrite k v e).1 = e.1 := by
  rw [overwrite]
  split <;> rfl

theorem overwrite_of_not_same {k v : Value} {e : Value × Value} (h : k.same e.1 = false) :
    overwrite k v e = e := by
  rw [overwrite, h]
  rfl

theorem put_eq (es : List (Value × Value)) (k v : Value) : put es k v =
    if es.any (fun e => k.same e.1) then es.map (overwrite k v) else es ++ [(k, v)] := rfl

/-- An entry under another key than a text has no influence on those under texts. -/
theorem field?_put_of_not_isStr {k : Value} (h : k.isStr = false) (es : List (Value × Value))
    (v : Value) (key : String) : field? (put es k v) key = field? es key := by
  have hfresh : k.isText key = false := by
    rw [isText_eq_same]
    exact (same_text_of_not_isStr h key).1
  rw [put_eq]
  split
  case isTrue =>
    clear * -h
    induction es with
    | nil => rfl
    | cons e es ih =>
      obtain ⟨k', v'⟩ := e
      rw [List.map_cons, ← Prod.eta (overwrite k v (k', v')), overwrite_fst, field?_cons,
        field?_cons, ih]
      split
      case isFalse => rfl
      case isTrue hkey =>
        have hk' : k' = .str key := same_str.mp ((isText_eq_same k' key).symm.trans hkey)
        subst hk'
        rw [overwrite_of_not_same (same_text_of_not_isStr h key).2]
  case isFalse =>
    rw [field?_append, field?_cons, hfresh]
    exact Option.or_none

theorem putAll_concat (es : List (Value × Value)) (added : List (Value × Value))
    (e : Value × Value) : putAll es (added ++ [e]) = put (putAll es added) e.1 e.2 := by
  rw [putAll, List.foldl_append]
  rfl

/-- What is written wins over what was there. -/
theorem field?_putAll (es added : List (Value × Value)) (key : String) :
    field? (putAll es added) key = (field? (putAll [] added) key).or (field? es key) := by
  induction added using List.reverseRec with
  | nil => rfl
  | append_singleton added e ih =>
    obtain ⟨k, v⟩ := e
    rw [putAll_concat, putAll_concat]
    by_cases hk : k.isStr = true
    · obtain ⟨s, rfl⟩ : ∃ s, k = .str s := by cases k <;> simp_all [isStr]
      by_cases hs : key = s
      · subst hs
        rw [field?_put_same, field?_put_same]
        rfl
      · rw [field?_put_other _ _ hs, field?_put_other _ _ hs, ih]
    · rw [Bool.not_eq_true] at hk
      rw [field?_put_of_not_isStr hk, field?_put_of_not_isStr hk, ih]

/-- The entries under other keys than texts. -/
def others (es : List (Value × Value)) : List (Value × Value) := es.filter fun e => !e.1.isStr

theorem others_put (es : List (Value × Value)) (k v : Value) :
    others (put es k v) = if k.isStr then others es else put (others es) k v := by
  have hkeys : ((fun e : Value × Value => !e.1.isStr) ∘ overwrite k v) = fun e => !e.1.isStr :=
    funext fun e => congrArg (fun key : Value => !key.isStr) (overwrite_fst k v e)
  have hmap : others (es.map (overwrite k v)) = (others es).map (overwrite k v) := by
    rw [others, List.filter_map, hkeys]
    rfl
  by_cases hk : k.isStr = true
  · obtain ⟨s, rfl⟩ := eq_str_of_isStr hk
    rw [if_pos hk, put_eq]
    split
    case isTrue =>
      rw [hmap]
      refine (List.map_congr_left fun e he => overwrite_of_not_same ?_).trans (List.map_id _)
      have hother : e.1.isStr = false := by simpa using (List.mem_filter.mp he).2
      exact (same_text_of_not_isStr hother s).1
    case isFalse => simp [others, isStr]
  · rw [if_neg hk, put_eq, put_eq]
    rw [Bool.not_eq_true] at hk
    have hany : (others es).any (fun e => k.same e.1) = es.any fun e => k.same e.1 := by
      rw [others, List.any_filter]
      refine congrArg es.any (funext fun e => ?_)
      cases hkey : e.1.isStr with
      | false => rfl
      | true =>
        obtain ⟨s, hs⟩ := eq_str_of_isStr hkey
        rw [hs, (same_text_of_not_isStr hk s).2]
        rfl
    rw [hany]
    split
    case isTrue => exact hmap
    case isFalse => simp [others, hk]

theorem others_putAll {es es' : List (Value × Value)} (h : others es = others es')
    (added : List (Value × Value)) : others (putAll es added) = others (putAll es' added) := by
  induction added using List.reverseRec with
  | nil => exact h
  | append_singleton added e ih => rw [putAll_concat, putAll_concat, others_put, others_put, ih]

end Value

end StreamTable
