/-
What fits a stripped schema is not refused by the schema.  A branch of a union that a value fits is
left of the schema, and a field that lost a null default is null without it.  Two things can come
between: a union without any branch is stripped to null but takes no value, and the check of an
earlier branch can break off where the stripped branch did not get so far.

So the schema may have no empty union, and in general its check succeeds or breaks off.  It succeeds
if no union has a choice between branches that are not null.
-/
import StreamTable.Avro.Validation
import StreamTable.Proofs.Avro.Everywhere
import StreamTable.Proofs.Avro.Stripping

namespace StreamTable
namespace Avro

open Value

namespace Schema

def isOccupied : Schema → Bool
  | .union [] => false
  | _ => true

/-- Whether no union inside a schema is empty. -/
def isPopulated (s : Schema) : Bool := s.everywhere isOccupied

/-- Whether a list has at most one branch that is not null. -/
def hasNoChoice (branches : List Schema) : Bool := branches.countP (!·.isNull) ≤ 1

theorem hasNoChoice_tail {s : Schema} {rest : List Schema} (h : hasNoChoice (s :: rest) = true) :
    hasNoChoice rest = true := by
  rw [hasNoChoice, decide_eq_true_iff] at h ⊢
  exact Nat.le_trans (List.sublist_cons_self s rest).countP_le h

def leavesNoChoice : Schema → Bool
  | .union branches => hasNoChoice branches
  | _ => true

/-- Whether no union inside a schema has a choice between branches that are not null. -/
def isDecided (s : Schema) : Bool := s.everywhere leavesNoChoice

end Schema

/-! ## Fields without null defaults -/

/-- Without a null default an attribute is null all the same. -/
theorem field?_withoutNullDefault {es : List (Value × Value)} (h : es.countP isDefault ≤ 1) :
    (Value.field? (es.filter fun e => !NullFree.isNullDefault e) "default").getD .null =
      (Value.field? es "default").getD .null := by
  induction es with
  | nil => rfl
  | cons e es ih =>
    obtain ⟨k, v⟩ := e
    rw [List.countP_cons] at h
    cases hk : k.isText "default" with
    | false =>
      have hkept : (!NullFree.isNullDefault (k, v)) = true := by simp [NullFree.isNullDefault, hk]
      rw [List.filter_cons, if_pos hkept, field?_cons, field?_cons, hk]
      exact ih (by omega)
    | true =>
      have hnone : es.countP isDefault = 0 := by
        have hdefault : isDefault (k, v) = true := hk
        rw [if_pos hdefault] at h
        omega
      cases hv : v.isNull with
      | false =>
        have hkept : (!NullFree.isNullDefault (k, v)) = true := by simp [NullFree.isNullDefault, hv]
        rw [List.filter_cons, if_pos hkept, field?_cons, field?_cons, hk]
        rfl
      | true =>
        have hdropped : ¬(!NullFree.isNullDefault (k, v)) = true := by
          simp [NullFree.isNullDefault, hk, hv]
        have hrest : Value.field? (es.filter fun e => !NullFree.isNullDefault e) "default" =
            none := by
          refine field?_eq_none fun e he => ?_
          exact Bool.eq_false_iff.mpr (List.countP_eq_zero.mp hnone e (List.mem_of_mem_filter he))
        have hnull : v = .null := by
          cases v <;> first | rfl | cases hv
        rw [List.filter_cons, if_neg hdropped, field?_cons, hk, hrest, hnull]
        rfl

namespace Validation

theorem fieldValue_stripped (row : List (Value × Value)) {f : FieldHead} (hf : f.Regular)
    (null : Bool) : fieldValue row (f.stripped null) = fieldValue row f := by
  cases null with
  | true => rfl
  | false =>
    have hdefault := field?_withoutNullDefault hf.entries.defaultOnce
    simp only [fieldValue, FieldHead.default?, FieldHead.stripped, Bool.false_eq_true, if_false,
      hdefault]

theorem fieldValue_regular {row : List (Value × Value)} {f : FieldHead} {v : Value}
    (hrow : ∀ e ∈ row, e.2.Regular) (hf : f.Regular) (h : fieldValue row f = .ok v) :
    v.Regular := by
  unfold fieldValue at h
  split at h
  · cases h
    cases hlookup : Value.lookup row f.name with
    | some w =>
      obtain ⟨e, he, rfl⟩ := Option.map_eq_some_iff.mp hlookup
      exact hrow e (List.mem_of_find?_eq_some he)
    | none =>
      cases hdefault : f.default? with
      | some d => exact hf.entries.field? hdefault
      | none => exact .atom _ rfl
  · cases h

/-! ## Verdicts -/

/-- What can be said of a check, through its parts, if the stripped schema accepts.  Under lenient
rules it does not matter if the check of an earlier branch breaks off. -/
structure Verdict (P : Except DataFault Bool → Prop) (lenient : Prop) : Prop where
  accepted : P (.ok true)
  and : ∀ {first next : Except DataFault Bool}, P first → P next →
    P (do if ← first then next else pure false)
  orFirst : ∀ {first next : Except DataFault Bool}, P first →
    P (do if ← first then pure true else next)
  orNext : ∀ {first next : Except DataFault Bool}, (lenient ∨ ∃ b, first = .ok b) → P next →
    P (do if ← first then pure true else next)

theorem verdict_accepted : Verdict (· = .ok true) False where
  accepted := rfl
  and hfirst hnext := by
    rw [hfirst, hnext]
    rfl
  orFirst hfirst := by
    rw [hfirst]
    rfl
  orNext hfirst hnext := by
    obtain hfalse | ⟨b, hfirst⟩ := hfirst
    · exact hfalse.elim
    · rw [hfirst, hnext]
      cases b <;> rfl

theorem verdict_notRefused : Verdict (· ≠ .ok false) True where
  accepted := nofun
  and hfirst hnext h := by
    obtain ⟨b, hb, h⟩ := Except.of_bind_ok h
    cases b with
    | true => exact hnext h
    | false => exact hfirst hb
  orFirst hfirst h := by
    obtain ⟨b, hb, h⟩ := Except.of_bind_ok h
    cases b with
    | true => cases h
    | false => exact hfirst hb
  orNext _ hnext h := by
    obtain ⟨b, -, h⟩ := Except.of_bind_ok h
    cases b with
    | true => cases h
    | false => exact hnext h

theorem and_eq_true {first next : Except DataFault Bool}
    (h : (do if ← first then next else pure false) = .ok true) :
    first = .ok true ∧ next = .ok true := by
  obtain ⟨b, hb, h⟩ := Except.of_bind_ok h
  cases b with
  | true => exact ⟨hb, h⟩
  | false => cases h

variable {P : Except DataFault Bool → Prop} {lenient : Prop}

theorem Verdict.of_true (c : Verdict P lenient) {r : Except DataFault Bool} (h : r = .ok true) :
    P r := by
  rw [h]
  exact c.accepted

theorem Verdict.allPass {α : Type} (c : Verdict P lenient)
    {check check' : α → Except DataFault Bool} {xs : List α} (hcheck : ∀ x ∈ xs, check' x = .ok true → P (check x))
    (h : allPass check' xs = .ok true) : P (allPass check xs) := by
  induction xs with
  | nil => exact c.accepted
  | cons x xs ih =>
    obtain ⟨hx, hxs⟩ := and_eq_true h
    exact c.and (hcheck x List.mem_cons_self hx)
      (ih (fun y hy => hcheck y (List.mem_cons_of_mem x hy)) hxs)

/-! ## Checks -/

theorem items?_regular {v : Value} {xs : List Value} (hv : v.Regular) (h : items? v = some xs) :
    ∀ x ∈ xs, x.Regular := by
  cases v with
  | list ys =>
    cases h
    exact hv.items
  | tuple ys => exact absurd hv Value.Regular.not_tuple
  | bytes b =>
    cases h
    exact regular_numbers b
  | bytearray b =>
    cases h
    exact regular_numbers b
  | _ => cases h

/-- No pair of a name and a value is regular, so a regular value names no branch. -/
theorem checkWith_union {R : Resolve} {branches : List Schema} {path : String} {v : Value}
    (hv : v.Regular) : checkWith R (.union branches) path v = checkBranches R branches path v := by
  cases v with
  | tuple xs => exact absurd hv Value.Regular.not_tuple
  | _ => rfl

/-- The check of a null type does not break off. -/
theorem checkWith_null {R : Resolve} {s : Schema} (h : s.isNull = true) (path : String)
    (v : Value) : checkWith R s path v = .ok (fitsPrimitive .null v) := by
  have hlogical (attrs : Attributes) : Logical.of? .null attrs = none := by
    unfold Logical.of?
    split <;> rfl
  cases s with
  | primitive p =>
    cases p with
    | null => rfl
    | _ => cases h
  | annotated p attrs =>
    cases p with
    | null => rw [checkWith, hlogical]
    | _ => cases h
  | _ => cases h

theorem strippedBranches_eq_nil {branches : List Schema} :
    Schema.strippedBranches branches = [] ↔ ∀ s ∈ branches, s.isNull = true := by
  induction branches with
  | nil => exact ⟨fun _ => nofun, fun _ => rfl⟩
  | cons s rest ih =>
    rw [Schema.strippedBranches, List.forall_mem_cons]
    cases s.isNull with
    | true => simpa using ih
    | false => simp

theorem strippedBranches_of_noChoice {s : Schema} {rest : List Schema}
    (h : Schema.hasNoChoice (s :: rest) = true) (hs : s.isNull = false) :
    Schema.strippedBranches rest = [] := by
  rw [Schema.hasNoChoice, decide_eq_true_iff, List.countP_cons_of_pos (by rw [hs]; rfl)] at h
  refine strippedBranches_eq_nil.mpr fun t ht => ?_
  have hnone : rest.countP (!·.isNull) = 0 := by omega
  simpa using List.countP_eq_zero.mp hnone t ht

variable {R R' : Resolve}

mutual

/-- A value that fits the stripped schema is judged by the schema, if that holds of the types that
are referred to. -/
theorem checkWith_stripped (c : Verdict P lenient)
    (hR : ∀ name path v, v.Regular → R' name path v = .ok true → P (R name path v)) :
    ∀ {s : Schema} {path : String} {v : Value}, s.Regular → s.isPopulated = true →
    (lenient ∨ s.isDecided = true) → v.Regular →
    checkWith R' s.stripped path v = .ok true → P (checkWith R s path v)
  | .primitive p, path, v, _, _, _, _, h => c.of_true h
  | .named name, path, v, _, _, _, hv, h => hR name path v hv h
  | .annotated p attrs, path, v, _, _, _, _, h => c.of_true h
  | .enum name symbols attrs, path, v, _, _, _, _, h => c.of_true h
  | .fixed name size attrs, path, v, _, _, _, _, h => c.of_true h
  | .array items attrs, path, v, hs, hfull, hone, hv, h => by
    rw [Schema.stripped, checkWith] at h
    rw [checkWith]
    cases hxs : items? v with
    | none =>
      rw [hxs] at h
      cases h
    | some xs =>
      rw [hxs] at h
      refine c.allPass (fun x hx hpass => ?_) h
      exact checkWith_stripped c hR hs.2 (Schema.inherited_everywhere.array hfull)
        (hone.imp_right Schema.inherited_everywhere.array) (items?_regular hv hxs x hx) hpass
  | .map values attrs, path, v, hs, hfull, hone, hv, h => by
    cases v with
    | map es =>
      rw [Schema.stripped, checkWith] at h
      rw [checkWith]
      split at h
      · rename_i hkeys
        rw [if_pos hkeys]
        refine c.allPass (fun e he hpass => ?_) h
        exact checkWith_stripped c hR hs.2 (Schema.inherited_everywhere.map hfull)
          (hone.imp_right Schema.inherited_everywhere.map) (hv.entries.values e he) hpass
      · cases h
    | _ => cases h
  | .record isError name fields attrs, path, v, hs, hfull, hone, hv, h => by
    cases v with
    | map row =>
      rw [Schema.stripped, checkWith] at h
      rw [checkWith]
      split at h
      · rename_i hmark
        rw [if_pos hmark]
        exact checkFields_stripped c hR hs.2 (Schema.inherited_everywhere.record hfull)
          (hone.imp_right Schema.inherited_everywhere.record) hv.entries.values h
      · cases h
    | _ => cases h
  | .union branches, path, v, hs, hfull, hone, hv, h => by
    rw [checkWith_union hv]
    rw [Schema.stripped] at h
    cases hleft : Schema.strippedBranches branches with
    | nil =>
      rw [hleft] at h
      cases branches with
      | nil => cases hfull
      | cons s rest =>
        have hs := strippedBranches_eq_nil.mp hleft s List.mem_cons_self
        refine c.orFirst (c.of_true ?_)
        rw [checkWith_null hs]
        exact h
    | cons b rest =>
      refine checkBranches_stripped c hR hs (Schema.inherited_everywhere.union hfull)
        (hone.imp_right Schema.inherited_everywhere.union)
        (hone.imp_right fun h => (Bool.and_eq_true_iff.mp h).1) hv ?_
      rw [hleft] at h ⊢
      cases rest with
      | nil =>
        have hb : checkWith R' b path v = .ok true := h
        rw [checkBranches, hb]
        rfl
      | cons b' rest => exact (checkWith_union hv).symm.trans h
  | .unchecked node, path, v, _, _, _, _, h => by cases h

theorem checkFields_stripped (c : Verdict P lenient)
    (hR : ∀ name path v, v.Regular → R' name path v = .ok true → P (R name path v)) :
    ∀ {fields : List Field} {path : String} {row : List (Value × Value)},
    Schema.RegularFields fields → Schema.fieldsEverywhere Schema.isOccupied fields = true →
    (lenient ∨ Schema.fieldsEverywhere Schema.leavesNoChoice fields = true) →
    (∀ e ∈ row, e.2.Regular) →
    checkFields R' (Schema.strippedFields fields) path row = .ok true →
    P (checkFields R fields path row)
  | [], path, row, _, _, _, _, _ => c.accepted
  | (f, s) :: rest, path, row, hs, hfull, hone, hrow, h => by
    obtain ⟨hfullhead, hfullrest⟩ := Schema.inherited_everywhere.field hfull
    have hone := hone.imp_right Schema.inherited_everywhere.field
    rw [Schema.strippedFields, checkFields, fieldValue_stripped row hs.1] at h
    rw [checkFields]
    cases hvalue : fieldValue row f with
    | error fault =>
      rw [hvalue] at h
      cases h
    | ok v =>
      rw [hvalue] at h
      have hname : (f.stripped s.stripped.isNull).name = f.name := by
        cases s.stripped.isNull <;> rfl
      rw [hname] at h
      obtain ⟨hhead, hrest⟩ := and_eq_true h
      exact c.and
        (checkWith_stripped c hR hs.2.1 hfullhead (hone.imp_right And.left)
          (fieldValue_regular hrow hs.1 hvalue) hhead)
        (checkFields_stripped c hR hs.2.2 hfullrest (hone.imp_right And.right) hrow hrest)

theorem checkBranches_stripped (c : Verdict P lenient)
    (hR : ∀ name path v, v.Regular → R' name path v = .ok true → P (R name path v)) :
    ∀ {branches : List Schema} {path : String} {v : Value}, Schema.RegularBranches branches →
    Schema.branchesEverywhere Schema.isOccupied branches = true →
    (lenient ∨ Schema.branchesEverywhere Schema.leavesNoChoice branches = true) →
    (lenient ∨ Schema.hasNoChoice branches = true) → v.Regular →
    checkBranches R' (Schema.strippedBranches branches) path v = .ok true →
    P (checkBranches R branches path v)
  | [], path, v, _, _, _, _, _, h => by cases h
  | s :: rest, path, v, hs, hfull, hone, hchoice, hv, h => by
    obtain ⟨hfullhead, hfullrest⟩ := Schema.inherited_everywhere.branch hfull
    have hone := hone.imp_right Schema.inherited_everywhere.branch
    have hrest (h : checkBranches R' (Schema.strippedBranches rest) path v = .ok true) :=
      checkBranches_stripped c hR hs.2 hfullrest (hone.imp_right And.right)
        (hchoice.imp_right Schema.hasNoChoice_tail) hv h
    rw [Schema.strippedBranches] at h
    cases hnull : s.isNull with
    | true =>
      rw [hnull] at h
      exact c.orNext (.inr ⟨_, checkWith_null hnull path v⟩) (hrest h)
    | false =>
      rw [hnull] at h
      obtain ⟨b, hb, h⟩ := Except.of_bind_ok h
      cases b with
      | true =>
        exact c.orFirst
          (checkWith_stripped c hR hs.1 hfullhead (hone.imp_right And.left) hv hb)
      | false =>
        obtain hlenient | hchoice := hchoice
        · exact c.orNext (.inl hlenient) (hrest h)
        · have hnone := strippedBranches_of_noChoice hchoice hnull
          rw [hnone] at h
          cases h

end

/-- However deep references may be followed, they are followed alike. -/
theorem check_stripped (c : Verdict P lenient) {t : Schema} (ht : t.Regular)
    (hfull : t.isPopulated = true) (hone : lenient ∨ t.isDecided = true) (fuel : Nat) :
    ∀ {s : Schema} {path : String} {v : Value}, s.Regular → s.isPopulated = true →
    (lenient ∨ s.isDecided = true) → v.Regular →
    check (.of t.stripped) fuel s.stripped path v = .ok true → P (check (.of t) fuel s path v) := by
  induction fuel with
  | zero => exact fun _ _ _ _ h => by cases h
  | succ fuel ih =>
    intro s path v hs hfulls hones hv h
    refine checkWith_stripped c (fun name path v hv h => ?_) hs hfulls hones hv h
    rw [Schema.find?_stripped] at h
    cases hd : (Definitions.of t).find? name with
    | none =>
      rw [hd] at h
      cases h
    | some d =>
      rw [hd] at h
      exact ih (Schema.inherited_regular.find? ht hd) (Schema.inherited_everywhere.find? hfull hd)
        (hone.imp_right fun hone => Schema.inherited_everywhere.find? hone hd) hv h

end Validation

namespace Schema

/-- If the row fits a schema that the stripped form of another stands for, then this is what the
check of the row against the other comes to. -/
theorem fits_of_stripped {P : Except DataFault Bool → Prop} {lenient : Prop}
    (c : Validation.Verdict P lenient) {s p t : Schema} {row : Value} (ht : t.Regular)
    (hfull : t.isPopulated = true) (hone : lenient ∨ t.isDecided = true) (hrow : row.Regular)
    (hs : s.settle = .ok t) (hp : ∀ t', p.settle = .ok t' → t' = t.stripped)
    (h : p.fits row = .ok true) :
    ∃ r, P r ∧ s.fits row = r.mapError .data := by
  unfold fits at h ⊢
  rw [hs]
  cases hsettle : p.settle with
  | error fault =>
    rw [hsettle] at h
    cases h
  | ok t' =>
    rw [hsettle, hp t' hsettle] at h
    exact ⟨_, Validation.check_stripped c ht hfull hone maxNesting ht hfull hone hrow
      (Except.ok_of_mapError h), rfl⟩

end Schema
end Avro
end StreamTable
