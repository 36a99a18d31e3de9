/-
Schemas without nulls.  `s.stripped` is what a schema becomes when its node is stripped of nulls: a
node says `s` if and only if, once it is stripped, it says `s.stripped`.  Stripping a schema changes
neither the names that it defines nor the order of what is left.
-/
import Mathlib.Data.List.Forall2
import StreamTable.Avro.NullFree
import StreamTable.Proofs.Avro.Regular

namespace StreamTable
namespace Avro

open Value

namespace Schema

/-- Whether a schema is the null type. -/
def isNull : Schema → Bool
  | .primitive .null => true
  | .annotated .null _ => true
  | _ => false

/-- A union of the branches that are left. -/
def collapse : List Schema → Schema
  | [] => .primitive .null
  | [s] => s
  | ss => .union ss

end Schema

/-- A field's head without a null default, unless the field's type is null. -/
def FieldHead.stripped (f : FieldHead) (null : Bool) : FieldHead :=
  if null then f
  else { f with attributes := f.attributes.filter fun e => !NullFree.isNullDefault e }

namespace Schema

mutual

def stripped : Schema → Schema
  | .array items attrs => .array items.stripped attrs
  | .map values attrs => .map values.stripped attrs
  | .record isError name fields attrs => .record isError name (strippedFields fields) attrs
  | .union branches => collapse (strippedBranches branches)
  | s => s

def strippedFields : List (FieldHead × Schema) → List (FieldHead × Schema)
  | [] => []
  | (f, s) :: rest => (f.stripped s.stripped.isNull, s.stripped) :: strippedFields rest

/-- The branches that are not null, each without nulls. -/
def strippedBranches : List Schema → List Schema
  | [] => []
  | s :: rest =>
    if s.isNull then strippedBranches rest else s.stripped :: strippedBranches rest

end

end Schema

/-! ## Entries that are changed under one key -/

/-- Entries that are the same, in the same order, but for those under a key. -/
def SameBut (key : String) (es es' : List (Value × Value)) : Prop :=
  es'.filter (fun e => !e.1.isText key) = es.filter fun e => !e.1.isText key

namespace SameBut

variable {key k : String} {es es' : List (Value × Value)}

theorem append (es : List (Value × Value)) (v : Value) :
    SameBut key es (es ++ [entry key v]) := by
  simp [SameBut, entry, isText]

theorem trans {es'' : List (Value × Value)} (h : SameBut key es es') (h' : SameBut key es' es'') :
    SameBut key es es'' :=
  Eq.trans h' h

theorem field?_eq (h : SameBut key es es') (hk : k ≠ key) :
    Value.field? es' k = Value.field? es k := by
  have hother : ∀ e : Value × Value, e.1.isText k = true → (!e.1.isText key) = true := by
    intro e he
    rw [isText_eq_same, same_str] at he
    simpa [he, isText] using hk
  rw [← field?_filter (p := fun e => !e.1.isText key) fun e _ => hother e, h,
    field?_filter fun e _ => hother e]

theorem filter_eq (h : SameBut key es es') {p : Value × Value → Bool}
    (hp : ∀ e : Value × Value, e.1.isText key = true → p e = false) :
    es'.filter p = es.filter p := by
  have hfilter (fs : List (Value × Value)) :
      fs.filter p = (fs.filter fun e => !e.1.isText key).filter p := by
    rw [List.filter_filter]
    refine List.filter_congr fun e _ => ?_
    cases he : e.1.isText key with
    | true => rw [hp e he]; rfl
    | false => simp
  rw [hfilter es', hfilter es, h]

/-- The attributes stay if the key is none of theirs. -/
theorem attributesOf_eq (h : SameBut key es es') (hkey : key ∈ Schema.reservedKeys)
    (hdoc : key ≠ "doc") : Schema.attributesOf es' = Schema.attributesOf es := by
  have hfilter : es'.filter (fun e => !Schema.reservedKeys.any (e.1.isText ·)) =
      es.filter fun e => !Schema.reservedKeys.any (e.1.isText ·) := by
    refine h.filter_eq fun e he => ?_
    rw [Bool.not_eq_false']
    exact List.any_eq_true.mpr ⟨key, hkey, he⟩
  rw [Schema.attributesOf, Schema.attributesOf, hfilter, h.field?_eq (Ne.symm hdoc)]

theorem describes (h : SameBut key es es') {kind : String} {attrs : Attributes}
    (hes : Schema.Describes es kind attrs) (hkey : key ∈ Schema.reservedKeys) (hdoc : key ≠ "doc")
    (htype : key ≠ "type") : Schema.Describes es' kind attrs :=
  ⟨(h.field?_eq (Ne.symm htype)).trans hes.type,
    hes.attributes.trans (h.attributesOf_eq hkey hdoc).symm⟩

theorem fullNameOf_eq (h : SameBut key es es') (hname : key ≠ "name") (hns : key ≠ "namespace")
    (scope : Scope) : Schema.fullNameOf es' scope = Schema.fullNameOf es scope := by
  cases scope with
  | within around =>
    rw [Schema.fullNameOf, Schema.fullNameOf, Schema.nameWithin, Schema.nameWithin,
      h.field?_eq (Ne.symm hname), h.field?_eq (Ne.symm hns)]
  | verbatim =>
    rw [Schema.fullNameOf, Schema.fullNameOf, Schema.required, Schema.required,
      h.field?_eq (Ne.symm hname)]

end SameBut

/-- Entries with the same keys in the same order; the values under a key are related, the others are
the same. -/
def AlteredAt (R : Value → Value → Prop) (key : String) :
    List (Value × Value) → List (Value × Value) → Prop :=
  List.Forall₂ fun e e' => e'.1 = e.1 ∧ if e.1.isText key then R e.2 e'.2 else e'.2 = e.2

namespace AlteredAt

variable {R : Value → Value → Prop} {key : String} {es es' : List (Value × Value)}

theorem sameBut (h : AlteredAt R key es es') : SameBut key es es' := by
  induction h with
  | nil => rfl
  | @cons e e' es es' he _ ih =>
    obtain ⟨hkey, hvalue⟩ := he
    unfold SameBut at ih ⊢
    cases hk : e.1.isText key with
    | true =>
      rw [List.filter_cons_of_neg (by simp [hkey, hk]), List.filter_cons_of_neg (by simp [hk]), ih]
    | false =>
      rw [hk, if_neg Bool.false_ne_true] at hvalue
      obtain rfl : e' = e := Prod.ext hkey hvalue
      rw [List.filter_cons, List.filter_cons, ih]

/-- What the key finds after the change, by what it found before. -/
theorem rel (h : AlteredAt R key es es') :
    Option.Rel R (Value.field? es key) (Value.field? es' key) := by
  induction h with
  | nil => exact .none
  | @cons e e' es es' he _ ih =>
    obtain ⟨k, v⟩ := e
    obtain ⟨k', v'⟩ := e'
    obtain ⟨rfl, hvalue⟩ := he
    rw [field?_cons, field?_cons]
    cases hk : k'.isText key with
    | true => exact .some (by simpa [hk] using hvalue)
    | false => exact ih

theorem field?_some (h : AlteredAt R key es es') {v : Value}
    (hv : Value.field? es key = some v) : ∃ v', Value.field? es' key = some v' ∧ R v v' := by
  have hrel := h.rel
  rw [hv] at hrel
  cases hv' : Value.field? es' key with
  | none =>
    rw [hv'] at hrel
    cases hrel
  | some v' =>
    rw [hv'] at hrel
    cases hrel with
    | some hr => exact ⟨v', rfl, hr⟩

theorem field?_none (h : AlteredAt R key es es') (hv : Value.field? es key = none) :
    Value.field? es' key = none := by
  have hrel := h.rel
  rw [hv] at hrel
  cases hv' : Value.field? es' key with
  | none => rfl
  | some v' =>
    rw [hv'] at hrel
    cases hrel

end AlteredAt

/-! ## Stripping nodes -/

namespace NullFree

/-- Entries with the value under a key replaced. -/
def alterEntry (f : Value → Except DataFault Value) (key : String) :
    List (Value × Value) → Except DataFault (List (Value × Value))
  | [] => .ok []
  | (k, v) :: es =>
    (if k.isText key then f v else .ok v).bind fun v => (alterEntry f key es).map ((k, v) :: ·)

section Alter

variable {f : Value → Except DataFault Value} {key : String}

theorem alterEntry_cons {k v : Value} {es es' : List (Value × Value)} :
    alterEntry f key ((k, v) :: es) = .ok es' ↔
      ∃ v' rest, (if k.isText key then f v else .ok v) = .ok v' ∧ alterEntry f key es = .ok rest ∧
        es' = (k, v') :: rest := by
  rw [alterEntry]
  constructor
  · intro h
    obtain ⟨v', hv, h⟩ := Except.of_bind_ok h
    cases hrest : alterEntry f key es with
    | error fault =>
      rw [hrest] at h
      cases h
    | ok rest =>
      rw [hrest] at h
      cases h
      exact ⟨v', rest, hv, rfl, rfl⟩
  · rintro ⟨v', rest, hv, hrest, rfl⟩
    rw [hv, hrest]
    rfl

theorem alterEntry_altered {es es' : List (Value × Value)} (h : alterEntry f key es = .ok es') :
    AlteredAt (fun v v' => f v = .ok v') key es es' := by
  induction es generalizing es' with
  | nil =>
    cases h
    exact .nil
  | cons e es ih =>
    obtain ⟨v', rest, hv, hrest, rfl⟩ := alterEntry_cons.mp h
    refine .cons ⟨rfl, ?_⟩ (ih hrest)
    by_cases hk : e.1.isText key = true
    · rw [if_pos hk] at hv ⊢
      exact hv
    · rw [if_neg hk] at hv ⊢
      exact (Except.ok.inj hv).symm

/-- Entries under other keys stay. -/
theorem alterEntry_append {es es' added : List (Value × Value)}
    (hes : ∀ e ∈ es, e.1.isText key = false) (h : alterEntry f key added = .ok es') :
    alterEntry f key (es ++ added) = .ok (es ++ es') := by
  induction es with
  | nil => exact h
  | cons e es ih =>
    have hk : ¬e.1.isText key = true := Bool.eq_false_iff.mp (hes _ List.mem_cons_self)
    exact alterEntry_cons.mpr ⟨e.2, es ++ es', if_neg hk,
      ih fun e he => hes e (List.mem_cons_of_mem _ he), rfl⟩

theorem alterEntry_filter {q : Value → Bool} {es es' : List (Value × Value)}
    (h : alterEntry f key es = .ok es') :
    alterEntry f key (es.filter fun e => q e.1) = .ok (es'.filter fun e => q e.1) := by
  induction es generalizing es' with
  | nil =>
    cases h
    rfl
  | cons e es ih =>
    obtain ⟨v', rest, hv, hrest, rfl⟩ := alterEntry_cons.mp h
    rw [List.filter_cons, List.filter_cons]
    by_cases hk : q e.1 = true
    · rw [if_pos hk, if_pos hk]
      exact alterEntry_cons.mpr ⟨v', _, hv, ih hrest, rfl⟩
    · rw [if_neg hk, if_neg hk]
      exact ih hrest

end Alter

theorem stripEntry_eq (key : String) (es : List (Value × Value)) :
    stripEntry key es = alterEntry strip key es := by
  induction es with
  | nil =>
    rw [stripEntry]
    rfl
  | cons e es ih =>
    rw [stripEntry, ih, alterEntry]
    split
    · rfl
    · rfl

/-- The node of a record's fields, projected. -/
def stripFieldsNode : Value → Except DataFault Value
  | .list fs => (stripFields fs).map .list
  | v => looseFields v

theorem stripFieldsEntry_eq (es : List (Value × Value)) :
    stripFieldsEntry es = alterEntry stripFieldsNode "fields" es := by
  induction es with
  | nil =>
    rw [stripFieldsEntry]
    rfl
  | cons e es ih =>
    obtain ⟨k, v⟩ := e
    rw [stripFieldsEntry.eq_def]
    dsimp only
    rw [ih, alterEntry]
    split
    · cases v with
      | list fs =>
        dsimp only [stripFieldsNode]
        cases stripFields fs <;> rfl
      | _ => rfl
    · rfl

/-- The nodes of fields before and after they are stripped. -/
def FieldsStripped (v v' : Value) : Prop :=
  stripFields (Schema.fieldNodes (some v)) = .ok (Schema.fieldNodes (some v'))

theorem fieldsStripped {v v' : Value} (h : stripFieldsNode v = .ok v') : FieldsStripped v v' := by
  have hloose {v v' : Value} (hv : Schema.fieldNodes (some v) = []) (h : looseFields v = .ok v') :
      FieldsStripped v v' := by
    have hv' : Schema.fieldNodes (some v') = [] := by
      unfold looseFields at h
      split at h
      · split at h
        · cases h
          rfl
        · cases h
      all_goals first | (cases h; rfl) | cases h
    rw [FieldsStripped, hv, hv', stripFields]
    rfl
  cases v with
  | list fs =>
    obtain ⟨fs', hfs, h⟩ := Except.of_bind_ok h
    cases h
    exact hfs
  | tuple xs =>
    cases xs with
    | nil => exact hloose rfl h
    | cons x xs => cases h
  | _ => exact hloose rfl h

theorem withFields_stripped {es es' : List (Value × Value)}
    (h : alterEntry stripFieldsNode "fields" es = .ok es') :
    SameBut "fields" es (withFields es es') ∧
      stripFields (Schema.fieldNodes (Value.field? es "fields")) =
        .ok (Schema.fieldNodes (Value.field? (withFields es es') "fields")) := by
  have h := alterEntry_altered h
  unfold withFields
  cases hv : Value.field? es "fields" with
  | some v =>
    obtain ⟨v', hv', hr⟩ := h.field?_some hv
    rw [Option.isSome_some, if_pos rfl, hv']
    exact ⟨h.sameBut, fieldsStripped hr⟩
  | none =>
    have hentry : Value.field? [entry "fields" (.list [])] "fields" = some (.list []) := by
      rw [entry, field?_cons]
      exact if_pos (by decide)
    rw [Option.isSome_none, if_neg Bool.false_ne_true, field?_append, h.field?_none hv, hentry]
    exact ⟨h.sameBut.trans (SameBut.append es' _), stripFields.eq_def []⟩

/-! ### Heads of fields -/

theorem field?_dropNullDefault (es : List (Value × Value)) {k : String} (hk : k ≠ "default") :
    Value.field? (dropNullDefault es) k = Value.field? es k := by
  have hfilter : Value.field? (es.filter fun e => !isNullDefault e) k = Value.field? es k := by
    refine field?_filter fun e _ he => ?_
    rw [isText_eq_same, same_str] at he
    simp [isNullDefault, he, isText, hk]
  unfold dropNullDefault
  split
  · split
    · rfl
    · exact hfilter
  · rfl

theorem fieldAttributesOf_dropNullDefault {es : List (Value × Value)} {type : Value}
    (htype : Value.field? es "type" = some type) {f : FieldHead}
    (hf : f.attributes = Schema.fieldAttributesOf es) :
    (f.stripped (isNullType type)).attributes =
      Schema.fieldAttributesOf (dropNullDefault es) := by
  unfold dropNullDefault FieldHead.stripped
  rw [htype]
  dsimp only
  cases isNullType type with
  | true => exact hf
  | false =>
    simp only [hf, Schema.fieldAttributesOf, List.filter_filter, Bool.false_eq_true, if_false]
    exact List.filter_congr fun e _ => Bool.and_comm _ _

theorem isNullType_eq {s : Schema} {node : Value} {scope : Scope} (h : s.ReadFrom node scope) :
    isNullType node = s.isNull := by
  have hmap : ∀ {es : List (Value × Value)} {kind : String} {attrs : Attributes},
      Schema.Describes es kind attrs → isNullType (.map es) = (kind == "null") := by
    intro es kind attrs hes
    rw [isNullType, hes.type]
    rfl
  cases s with
  | primitive p =>
    cases h
    cases p <;> rfl
  | named name =>
    obtain ⟨t, rfl, ht, -⟩ := h
    have hne : t ≠ "null" := by
      rintro rfl
      cases ht
    exact beq_eq_false_iff_ne.mpr hne
  | annotated p attrs =>
    obtain ⟨es, rfl, hes⟩ := h
    rw [hmap hes]
    cases p <;> rfl
  | array items attrs =>
    obtain ⟨es, v, rfl, hes, -⟩ := h
    exact hmap hes
  | map values attrs =>
    obtain ⟨es, v, rfl, hes, -⟩ := h
    exact hmap hes
  | enum name symbols attrs =>
    obtain ⟨es, inner, rfl, hes, -⟩ := h
    exact hmap hes
  | fixed name size attrs =>
    obtain ⟨es, inner, rfl, hes, -⟩ := h
    exact hmap hes
  | record isError name fields attrs =>
    obtain ⟨es, inner, rfl, hes, -⟩ := h
    rw [hmap hes]
    cases isError <;> rfl
  | union branches =>
    obtain ⟨xs, rfl, -⟩ := h
    rfl
  | unchecked node => exact h.elim

/-! ### Objects of a kind -/

section Kinds

variable {es : List (Value × Value)}

theorem strip_array (htype : Value.field? es "type" = some (.str "array")) :
    strip (.map es) = (do
      requireKey es "items"
      let es ← alterEntry strip "items" es
      pure (.map es)) := by
  rw [strip.eq_def]
  dsimp only
  rw [htype, ← stripEntry_eq]
  rfl

theorem strip_mapOf (htype : Value.field? es "type" = some (.str "map")) :
    strip (.map es) = (do
      requireKey es "values"
      let es ← alterEntry strip "values" es
      pure (.map es)) := by
  rw [strip.eq_def]
  dsimp only
  rw [htype, ← stripEntry_eq]
  rfl

theorem strip_record {isError : Bool}
    (htype : Value.field? es "type" = some (.str (if isError then "error" else "record"))) :
    strip (.map es) = (do
      let stripped ← alterEntry stripFieldsNode "fields" es
      pure (.map (withFields es stripped))) := by
  rw [strip.eq_def]
  dsimp only
  rw [htype, ← stripFieldsEntry_eq]
  cases isError <;> rfl

/-- An object of any other kind stays as it is. -/
theorem strip_other {kind : String} (htype : Value.field? es "type" = some (.str kind))
    (hkind : kind ∉ ["record", "error", "array", "map"]) : strip (.map es) = .ok (.map es) := by
  rw [strip.eq_def]
  dsimp only
  rw [htype]
  simp only [List.mem_cons, List.not_mem_nil, or_false, not_or] at hkind
  split <;> first | rfl | simp_all

end Kinds

end NullFree

namespace Schema

/-! ## Stripping schemas -/

theorem collapse_readFrom {branches : List Schema} {xs : List Value} {scope : Scope}
    (h : BranchesReadFrom branches xs scope) :
    (collapse branches).ReadFrom (NullFree.collapse xs) scope := by
  match branches with
  | [] =>
    cases h
    exact rfl
  | [s] =>
    obtain ⟨x, ys, rfl, hs, hrest⟩ := h
    cases hrest
    exact hs
  | s :: t :: rest =>
    have hxs := h
    obtain ⟨x, ys, rfl, -, y, zs, rfl, -⟩ := h
    exact ⟨x :: y :: zs, rfl, hxs⟩

mutual

/-- A stripped node says the stripped schema. -/
theorem ReadFrom.stripped : ∀ {s : Schema} {node node' : Value} {scope : Scope},
    s.ReadFrom node scope → NullFree.strip node = .ok node' → s.stripped.ReadFrom node' scope
  | .primitive p, node, node', scope, h, hstrip => by
    cases h
    cases hstrip
    exact rfl
  | .named name, node, node', scope, h, hstrip => by
    obtain ⟨t, rfl, ht, hname⟩ := h
    cases hstrip
    exact ⟨t, rfl, ht, hname⟩
  | .annotated p attrs, node, node', scope, h, hstrip => by
    obtain ⟨es, rfl, hes⟩ := h
    rw [NullFree.strip_other hes.type (by cases p <;> decide)] at hstrip
    cases hstrip
    exact ⟨es, rfl, hes⟩
  | .enum name symbols attrs, node, node', scope, h, hstrip => by
    obtain ⟨es, inner, rfl, hes, hrest⟩ := h
    rw [NullFree.strip_other hes.type (by decide)] at hstrip
    cases hstrip
    exact ⟨es, inner, rfl, hes, hrest⟩
  | .fixed name size attrs, node, node', scope, h, hstrip => by
    obtain ⟨es, inner, rfl, hes, hrest⟩ := h
    rw [NullFree.strip_other hes.type (by decide)] at hstrip
    cases hstrip
    exact ⟨es, inner, rfl, hes, hrest⟩
  | .array items attrs, node, node', scope, h, hstrip => by
    obtain ⟨es, v, rfl, hes, hv, hitems⟩ := h
    rw [NullFree.strip_array hes.type] at hstrip
    obtain ⟨-, -, hstrip⟩ := Except.of_bind_ok hstrip
    obtain ⟨es', hes', hstrip⟩ := Except.of_bind_ok hstrip
    cases hstrip
    have haltered := NullFree.alterEntry_altered hes'
    obtain ⟨v', hv', hr⟩ := haltered.field?_some hv
    exact ⟨es', v', rfl, haltered.sameBut.describes hes (by decide) (by decide) (by decide), hv',
      hitems.stripped hr⟩
  | .map values attrs, node, node', scope, h, hstrip => by
    obtain ⟨es, v, rfl, hes, hv, hvalues⟩ := h
    rw [NullFree.strip_mapOf hes.type] at hstrip
    obtain ⟨-, -, hstrip⟩ := Except.of_bind_ok hstrip
    obtain ⟨es', hes', hstrip⟩ := Except.of_bind_ok hstrip
    cases hstrip
    have haltered := NullFree.alterEntry_altered hes'
    obtain ⟨v', hv', hr⟩ := haltered.field?_some hv
    exact ⟨es', v', rfl, haltered.sameBut.describes hes (by decide) (by decide) (by decide), hv',
      hvalues.stripped hr⟩
  | .record isError name fields attrs, node, node', scope, h, hstrip => by
    obtain ⟨es, inner, rfl, hes, hname, hfields⟩ := h
    rw [NullFree.strip_record hes.type] at hstrip
    obtain ⟨es', hes', hstrip⟩ := Except.of_bind_ok hstrip
    cases hstrip
    obtain ⟨hsame, hstripped⟩ := NullFree.withFields_stripped hes'
    exact ⟨_, inner, rfl, hsame.describes hes (by decide) (by decide) (by decide),
      (hsame.fullNameOf_eq (by decide) (by decide) scope).trans hname, hfields.stripped hstripped⟩
  | .union branches, node, node', scope, h, hstrip => by
    obtain ⟨xs, rfl, hbranches⟩ := h
    obtain ⟨ys, hys, hstrip⟩ := Except.of_bind_ok hstrip
    cases hstrip
    exact collapse_readFrom (hbranches.stripped hys)

theorem FieldsReadFrom.stripped : ∀ {fields : List Field} {xs ys : List Value} {inner : Scope},
    FieldsReadFrom fields xs inner → NullFree.stripFields xs = .ok ys →
    FieldsReadFrom (strippedFields fields) ys inner
  | [], xs, ys, inner, h, hstrip => by
    cases h
    cases hstrip
    exact rfl
  | (f, s) :: rest, xs, ys, inner, h, hstrip => by
    obtain ⟨es, v, xs, rfl, hname, hattributes, hv, hs, hrest⟩ := h
    obtain ⟨-, -, hstrip⟩ := Except.of_bind_ok hstrip
    obtain ⟨es', hes', hstrip⟩ := Except.of_bind_ok hstrip
    obtain ⟨ys', hys', hstrip⟩ := Except.of_bind_ok hstrip
    cases hstrip
    rw [NullFree.stripEntry_eq] at hes'
    have haltered := NullFree.alterEntry_altered hes'
    obtain ⟨v', hv', hr⟩ := haltered.field?_some hv
    have hs' := hs.stripped hr
    have hattributes' : f.attributes = fieldAttributesOf es' :=
      hattributes.trans (haltered.sameBut.filter_eq fun e he => by simp [he]).symm
    refine ⟨_, v', ys', rfl, ?_, ?_, ?_, hs', hrest.stripped hys'⟩
    · rw [NullFree.field?_dropNullDefault es' (by decide), haltered.sameBut.field?_eq (by decide)]
      cases h : s.stripped.isNull <;> exact hname
    · rw [← NullFree.isNullType_eq hs']
      exact NullFree.fieldAttributesOf_dropNullDefault hv' hattributes'
    · rw [NullFree.field?_dropNullDefault es' (by decide), hv']

theorem BranchesReadFrom.stripped : ∀ {branches : List Schema} {xs ys : List Value}
    {scope : Scope}, BranchesReadFrom branches xs scope → NullFree.stripBranches xs = .ok ys →
    BranchesReadFrom (strippedBranches branches) ys scope
  | [], xs, ys, scope, h, hstrip => by
    cases h
    cases hstrip
    exact rfl
  | s :: rest, xs, ys, scope, h, hstrip => by
    obtain ⟨x, xs, rfl, hs, hrest⟩ := h
    rw [NullFree.stripBranches, NullFree.isNullType_eq hs] at hstrip
    rw [strippedBranches]
    cases hnull : s.isNull with
    | true =>
      rw [hnull] at hstrip
      exact hrest.stripped hstrip
    | false =>
      rw [hnull] at hstrip
      obtain ⟨x', hx', hstrip⟩ := Except.of_bind_ok hstrip
      obtain ⟨ys', hys, hstrip⟩ := Except.of_bind_ok hstrip
      cases hstrip
      exact ⟨x', ys', rfl, hs.stripped hx', hrest.stripped hys⟩

end

/-! ## Definitions -/

theorem definitions_collapse (branches : List Schema) :
    (collapse branches).definitions = branchDefinitions branches := by
  match branches with
  | [] => rfl
  | [s] => exact (List.append_nil _).symm
  | s :: t :: rest => rfl

theorem definitions_of_isNull {s : Schema} (h : s.isNull = true) : s.definitions = [] := by
  cases s <;> first | rfl | cases h

mutual

theorem definitions_stripped : ∀ s : Schema,
    s.stripped.definitions = s.definitions.map fun e => (e.1, e.2.stripped)
  | .array items attrs => definitions_stripped items
  | .map values attrs => definitions_stripped values
  | .record isError name fields attrs => by
    rw [stripped, definitions, definitions, List.map_cons, fieldDefinitions_stripped fields]
    rfl
  | .union branches => by
    rw [stripped, definitions_collapse, definitions]
    exact branchDefinitions_stripped branches
  | .enum .. | .fixed .. | .primitive _ | .named _ | .annotated .. | .unchecked _ => rfl

theorem fieldDefinitions_stripped : ∀ fields : List Field,
    fieldDefinitions (strippedFields fields) =
      (fieldDefinitions fields).map fun e => (e.1, e.2.stripped)
  | [] => rfl
  | (f, s) :: rest => by
    rw [strippedFields, fieldDefinitions, fieldDefinitions, List.map_append,
      definitions_stripped s, fieldDefinitions_stripped rest]

theorem branchDefinitions_stripped : ∀ branches : List Schema,
    branchDefinitions (strippedBranches branches) =
      (branchDefinitions branches).map fun e => (e.1, e.2.stripped)
  | [] => rfl
  | s :: rest => by
    rw [strippedBranches, branchDefinitions, List.map_append]
    cases hnull : s.isNull with
    | true =>
      rw [definitions_of_isNull hnull]
      exact branchDefinitions_stripped rest
    | false =>
      rw [← definitions_stripped s, ← branchDefinitions_stripped rest]
      rfl

end

/-- A name stands for the stripped type in a stripped schema. -/
theorem find?_stripped (s : Schema) (name : String) :
    (Definitions.of s.stripped).find? name = ((Definitions.of s).find? name).map stripped := by
  simp only [Definitions.find?, Definitions.of, definitions_stripped, ← List.map_reverse,
    List.find?_map, Option.map_map]
  rfl

end Schema

end Avro
end StreamTable
