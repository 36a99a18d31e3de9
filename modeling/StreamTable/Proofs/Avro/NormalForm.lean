/-
The normal form of nodes without nulls.  A union in normal form has two branches at least, none of
which is null, and a field has a null default only if its type is null.  One pass brings a node that
was read into its normal form, unless a union stands right inside another there: what is left in
place of a branch is null only if the branch was.  A node in normal form is stripped to itself.
-/
import StreamTable.Proofs.Avro.Sound
import StreamTable.Proofs.Record.ActiveSchema

namespace StreamTable
namespace Avro

open Value

/-! ## Entries -/

/-- The only entry under a key holds what is found there. -/
theorem eq_of_isText {es : List (Value × Value)} {key : String} {v : Value}
    (honce : es.countP (fun e => e.1.isText key) ≤ 1) (hv : Value.field? es key = some v) :
    ∀ e ∈ es, e.1.isText key = true → e.2 = v := by
  induction es with
  | nil => exact List.forall_mem_nil _
  | cons e₀ es ih =>
    obtain ⟨k, w⟩ := e₀
    rw [field?_cons] at hv
    by_cases hk : k.isText key = true
    · rw [if_pos hk] at hv
      rw [List.countP_cons, if_pos hk] at honce
      have hnone := List.countP_eq_zero.mp (Nat.le_zero.mp (Nat.le_of_succ_le_succ honce))
      intro e he htext
      obtain rfl | he := List.mem_cons.mp he
      · exact Option.some.inj hv
      · exact absurd htext (hnone e he)
    · rw [if_neg hk] at hv
      rw [List.countP_cons, if_neg hk] at honce
      intro e he htext
      obtain rfl | he := List.mem_cons.mp he
      · exact absurd htext hk
      · exact ih honce hv e he htext

theorem AlteredAt.countP_eq {R : Value → Value → Prop} {key : String}
    {es es' : List (Value × Value)} (h : AlteredAt R key es es') (k : String) :
    es'.countP (fun e => e.1.isText k) = es.countP fun e => e.1.isText k := by
  induction h with
  | nil => rfl
  | cons he _ ih => rw [List.countP_cons, List.countP_cons, he.1, ih]

theorem SameBut.filter {key : String} {es es' : List (Value × Value)} (h : SameBut key es es')
    (p : Value × Value → Bool) : SameBut key (es.filter p) (es'.filter p) := by
  have hcomm (fs : List (Value × Value)) :
      (fs.filter p).filter (fun e => !e.1.isText key) =
        (fs.filter fun e => !e.1.isText key).filter p := by
    simp only [List.filter_filter, Bool.and_comm]
  unfold SameBut at h ⊢
  rw [hcomm, hcomm, h]

namespace NullFree

open Schema

/-- Entries stay if what is under the key stays. -/
theorem alterEntry_self {f : Value → Except DataFault Value} {key : String}
    {es : List (Value × Value)} (h : ∀ e ∈ es, e.1.isText key = true → f e.2 = .ok e.2) :
    alterEntry f key es = .ok es := by
  induction es with
  | nil => rfl
  | cons e es ih =>
    have hes := ih fun e he => h e (List.mem_cons_of_mem _ he)
    refine alterEntry_cons.mpr ⟨e.2, es, ?_, hes, rfl⟩
    by_cases hk : e.1.isText key = true
    · rw [if_pos hk]
      exact h e List.mem_cons_self hk
    · rw [if_neg hk]

/-! ## The normal form -/

/-- Fields in normal form are objects with a type, and have a null default only if that is null. -/
def NormalFields (xs : List Value) : Prop :=
  ∀ x ∈ xs, ∃ es t, x = .map es ∧ (∀ key, es.countP (fun e => e.1.isText key) ≤ 1) ∧
    Value.field? es "type" = some t ∧
    (Value.field? es "default" = some .null → isNullType t = true)

/-- What is stripped of nulls in an object of a kind is there. -/
def NormalOfKind (es : List (Value × Value)) : String → Prop
  | "array" => (Value.field? es "items").isSome
  | "map" => (Value.field? es "values").isSome
  | "record" => ∃ xs, Value.field? es "fields" = some (.list xs) ∧ NormalFields xs
  | "error" => ∃ xs, Value.field? es "fields" = some (.list xs) ∧ NormalFields xs
  | _ => True

/-- A kind that none of the rules is about. -/
theorem other_kind {kind : String} (harray : kind ≠ "array") (hmap : kind ≠ "map")
    (hrecord : kind ≠ "record") (herror : kind ≠ "error") :
    kind ∉ ["record", "error", "array", "map"] := by
  simp only [List.mem_cons, List.not_mem_nil, or_false, not_or]
  exact ⟨hrecord, herror, harray, hmap⟩

theorem normalOfKind_other {kind : String} (hkind : kind ∉ ["record", "error", "array", "map"])
    (es : List (Value × Value)) : NormalOfKind es kind := by
  unfold NormalOfKind
  split <;> first | exact trivial | exact absurd (by decide) hkind

theorem inner_other {es : List (Value × Value)} {kind : String}
    (htype : Value.field? es "type" = some (.str kind))
    (hkind : kind ∉ ["record", "error", "array", "map"]) : inner (.map es) = [] := by
  rw [inner_map htype]
  unfold nodesOfKind
  split <;> first | rfl | exact absurd (by decide) hkind

structure NormalEntries (es : List (Value × Value)) : Prop where
  once : ∀ key, es.countP (fun e => e.1.isText key) ≤ 1
  kind : ∃ kind, Value.field? es "type" = some (.str kind) ∧ NormalOfKind es kind

/-- A node in normal form, whatever stands inside it. -/
def Normal : Value → Prop
  | .list xs => 2 ≤ xs.length ∧ ∀ x ∈ xs, isNullType x = false
  | .map es => NormalEntries es
  | _ => True

/-! ### Nodes in normal form stay -/

theorem stripBranches_of_normal {xs : List Value} (hxs : ∀ x ∈ xs, isNullType x = false)
    (h : ∀ x ∈ xs, strip x = .ok x) : stripBranches xs = .ok xs := by
  induction xs with
  | nil =>
    rw [stripBranches]
    rfl
  | cons x xs ih =>
    have hrest := ih (fun x hx => hxs x (List.mem_cons_of_mem _ hx)) fun x hx =>
      h x (List.mem_cons_of_mem _ hx)
    rw [stripBranches, hxs x List.mem_cons_self, if_neg Bool.false_ne_true,
      h x List.mem_cons_self, hrest]
    rfl

theorem dropNullDefault_of_normal {es : List (Value × Value)} {t : Value}
    (honce : ∀ key, es.countP (fun e => e.1.isText key) ≤ 1)
    (htype : Value.field? es "type" = some t)
    (hdefault : Value.field? es "default" = some .null → isNullType t = true) :
    dropNullDefault es = es := by
  rw [dropNullDefault, htype]
  dsimp only
  split
  · rfl
  · rename_i hnull
    refine List.filter_eq_self.mpr fun e he => ?_
    rw [Bool.not_eq_true', Bool.eq_false_iff]
    intro hdropped
    obtain ⟨htext, hvalue⟩ := Bool.and_eq_true_iff.mp hdropped
    cases hv : Value.field? es "default" with
    | none =>
      rw [field?_eq_find?, Option.map_eq_none_iff, List.find?_eq_none] at hv
      exact hv e he htext
    | some v =>
      have heq : e.2 = v := eq_of_isText (honce "default") hv e he htext
      rw [heq] at hvalue
      cases v with
      | null => exact hnull (hdefault hv)
      | _ => cases hvalue

theorem stripFields_of_normal {xs : List Value} (hxs : NormalFields xs)
    (h : ∀ t ∈ xs.filterMap fieldType?, strip t = .ok t) : stripFields xs = .ok xs := by
  induction xs with
  | nil =>
    rw [stripFields]
    rfl
  | cons x xs ih =>
    obtain ⟨es, t, rfl, honce, htype, hdefault⟩ := hxs x List.mem_cons_self
    have ht : strip t = .ok t := h t (List.mem_filterMap.mpr ⟨_, List.mem_cons_self, htype⟩)
    have hes : alterEntry strip "type" es = .ok es := alterEntry_self fun e he htext => by
      rw [eq_of_isText (honce "type") htype e he htext]
      exact ht
    have hrest := ih (fun x hx => hxs x (List.mem_cons_of_mem _ hx)) fun t ht => by
      obtain ⟨x, hx, ht⟩ := List.mem_filterMap.mp ht
      exact h t (List.mem_filterMap.mpr ⟨x, List.mem_cons_of_mem _ hx, ht⟩)
    rw [stripFields, requireKey, htype, Option.isSome_some, if_pos rfl, stripEntry_eq, hes, hrest]
    show Except.ok (Value.map (dropNullDefault es) :: xs) = _
    rw [dropNullDefault_of_normal honce htype hdefault]

theorem strip_inside_of_normal {es : List (Value × Value)} {key : String}
    (honce : es.countP (fun e => e.1.isText key) ≤ 1) (hsome : (Value.field? es key).isSome)
    (hstrip : strip (.map es) = (do
      requireKey es key
      let es ← alterEntry strip key es
      pure (.map es)))
    (ih : ∀ x ∈ (Value.field? es key).toList, strip x = .ok x) :
    strip (.map es) = .ok (.map es) := by
  obtain ⟨v, hv⟩ := Option.isSome_iff_exists.mp hsome
  have haltered : alterEntry strip key es = .ok es := alterEntry_self fun e he htext => by
    rw [eq_of_isText honce hv e he htext]
    exact ih v (Option.mem_toList.mpr hv)
  rw [hstrip, requireKey, if_pos hsome, haltered]
  rfl

theorem strip_record_of_normal {es : List (Value × Value)} (isError : Bool)
    (honce : es.countP (fun e => e.1.isText "fields") ≤ 1)
    (htype : Value.field? es "type" = some (.str (if isError then "error" else "record")))
    (hfields : ∃ xs, Value.field? es "fields" = some (.list xs) ∧ NormalFields xs)
    (ih : ∀ t ∈ (fieldNodes (Value.field? es "fields")).filterMap fieldType?, strip t = .ok t) :
    strip (.map es) = .ok (.map es) := by
  obtain ⟨xs, hfields, hxs⟩ := hfields
  rw [hfields] at ih
  have haltered : alterEntry stripFieldsNode "fields" es = .ok es :=
    alterEntry_self fun e he htext => by
      rw [eq_of_isText honce hfields e he htext, stripFieldsNode, stripFields_of_normal hxs ih]
      rfl
  rw [strip_record htype, haltered]
  show Except.ok (Value.map (withFields es es)) = _
  rw [withFields, hfields, Option.isSome_some, if_pos rfl]

/-- A node in normal form is stripped to itself. -/
theorem strip_of_normal {node : Value} (h : Throughout Normal node) : strip node = .ok node := by
  induction h with
  | @intro node here inside ih =>
    cases node with
    | list xs =>
      obtain ⟨hlength, hxs⟩ := here
      rw [strip, stripBranches_of_normal hxs ih]
      match xs, hlength with
      | _ :: _ :: _, _ => rfl
    | map es =>
      have hes : NormalEntries es := here
      obtain ⟨kind, htype, hkind⟩ := hes.kind
      rw [inner_map htype] at ih
      unfold NormalOfKind at hkind
      split at hkind
      · exact strip_inside_of_normal (hes.once _) hkind (strip_array htype) ih
      · exact strip_inside_of_normal (hes.once _) hkind (strip_mapOf htype) ih
      · exact strip_record_of_normal false (hes.once _) htype hkind ih
      · exact strip_record_of_normal true (hes.once _) htype hkind ih
      · rename_i harray hmap hrecord herror
        exact strip_other htype (other_kind harray hmap hrecord herror)
    | _ =>
      rw [strip.eq_def]
      rfl

/-! ## What is left of a node -/

mutual

/-- The second node is what is left of the first: the branches of its unions that are not null, in
their order, and all else in its place. -/
inductive LeftOf : Value → Value → Prop
  | union {xs ys : List Value}
      (h : List.Forall₂ LeftOf (xs.filter fun x => !isNullType x) ys) :
      LeftOf (.list xs) (collapse ys)
  | inside {es es' : List (Value × Value)} {kind key : String} {v v' : Value}
      (hkind : (kind, key) ∈ [("array", "items"), ("map", "values")])
      (htype : Value.field? es "type" = some (.str kind)) (hsame : SameBut key es es')
      (hv : Value.field? es key = some v) (hv' : Value.field? es' key = some v')
      (h : LeftOf v v') : LeftOf (.map es) (.map es')
  | record {es es' : List (Value × Value)} {kind : String} (hkind : kind ∈ ["record", "error"])
      (htype : Value.field? es "type" = some (.str kind)) (hsame : SameBut "fields" es es')
      (h : List.Forall₂ FieldLeftOf (fieldNodes (Value.field? es "fields"))
        (fieldNodes (Value.field? es' "fields"))) : LeftOf (.map es) (.map es')
  | other {es : List (Value × Value)} {kind : String}
      (htype : Value.field? es "type" = some (.str kind))
      (hkind : kind ∉ ["record", "error", "array", "map"]) : LeftOf (.map es) (.map es)
  | atom {v : Value} (hlist : isList v = false) (hmap : isMap v = false) : LeftOf v v

/-- A field keeps all its entries but its type, of which something is left, and a null default that
does not go with what is left of the type. -/
inductive FieldLeftOf : Value → Value → Prop
  | intro {es es' : List (Value × Value)} {t t' : Value} (htype : Value.field? es "type" = some t)
      (htype' : Value.field? es' "type" = some t') (h : LeftOf t t')
      (hsame : SameBut "type"
        (if isNullType t' then es else es.filter fun e => !isNullDefault e) es') :
      FieldLeftOf (.map es) (.map es')

end

/-- What is left of a node that is no union is null only if the node was. -/
theorem LeftOf.isNullType_eq {node node' : Value} (h : LeftOf node node')
    (hlist : isList node = false) : isNullType node' = isNullType node := by
  cases h with
  | union => cases hlist
  | @inside _ _ kind key _ _ hkind _ hsame =>
    have hkeys : ∀ p ∈ [("array", "items"), ("map", "values")], "type" ≠ p.2 := by decide
    rw [isNullType, isNullType, hsame.field?_eq (hkeys _ hkind)]
  | record _ _ hsame => rw [isNullType, isNullType, hsame.field?_eq (by decide)]
  | other => rfl
  | atom => rfl

/-! ## One pass -/

/-- One pass brings a node into its normal form. -/
structure Normalizes (node node' : Value) : Prop where
  strip : NullFree.strip node = .ok node'
  normal : Throughout Normal node'
  left : LeftOf node node'

/-- No branch of a union is a union itself. -/
def Flat : Value → Prop
  | .list xs => ∀ x ∈ xs, isList x = false
  | _ => True

theorem stripBranches_normal {xs : List Value} (hflat : Flat (.list xs))
    (h : ∀ x ∈ xs, ∃ y, Normalizes x y) : ∃ ys, stripBranches xs = .ok ys ∧
      List.Forall₂ LeftOf (xs.filter fun x => !isNullType x) ys ∧
      ∀ y ∈ ys, Throughout Normal y ∧ isNullType y = false := by
  induction xs with
  | nil => exact ⟨[], by rw [stripBranches]; rfl, .nil, List.forall_mem_nil _⟩
  | cons x xs ih =>
    obtain ⟨ys, hys, hleft, hnormal⟩ := ih (fun x hx => hflat x (List.mem_cons_of_mem _ hx))
      fun x hx => h x (List.mem_cons_of_mem _ hx)
    rw [stripBranches]
    cases hnull : isNullType x with
    | true =>
      rw [if_pos rfl, List.filter_cons_of_neg (by simp [hnull])]
      exact ⟨ys, hys, hleft, hnormal⟩
    | false =>
      obtain ⟨y, hy⟩ := h x List.mem_cons_self
      rw [if_neg Bool.false_ne_true, List.filter_cons_of_pos (by simp [hnull]), hy.strip, hys]
      refine ⟨y :: ys, rfl, .cons hy.left hleft, List.forall_mem_cons.mpr ⟨⟨hy.normal, ?_⟩, hnormal⟩⟩
      exact (hy.left.isNullType_eq (hflat x List.mem_cons_self)).trans hnull

theorem throughout_normal_collapse {ys : List Value}
    (h : ∀ y ∈ ys, Throughout Normal y ∧ isNullType y = false) :
    Throughout Normal (collapse ys) := by
  match ys with
  | [] => exact .intro trivial (List.forall_mem_nil _)
  | [y] => exact (h y List.mem_cons_self).1
  | y :: z :: ys =>
    exact .intro ⟨Nat.le_add_left 2 ys.length, fun x hx => (h x hx).2⟩ fun x hx => (h x hx).1

/-- An object that holds one node, under a key. -/
theorem inside_normal {es : List (Value × Value)} {kind key : String}
    (hkind : (kind, key) ∈ [("array", "items"), ("map", "values")])
    (honce : ∀ key, es.countP (fun e => e.1.isText key) ≤ 1)
    (htype : Value.field? es "type" = some (.str kind)) (hsome : (Value.field? es key).isSome)
    (hnodes : ∀ es, nodesOfKind es kind = (Value.field? es key).toList)
    (hnormal : ∀ es, (Value.field? es key).isSome → NormalOfKind es kind)
    (hstrip : strip (.map es) = (do
      requireKey es key
      let es ← alterEntry strip key es
      pure (.map es)))
    (ih : ∀ x ∈ inner (.map es), ∃ x', Normalizes x x') :
    ∃ node', Normalizes (.map es) node' := by
  have hkeys : ∀ p ∈ [("array", "items"), ("map", "values")], "type" ≠ p.2 := by decide
  obtain ⟨v, hv⟩ := Option.isSome_iff_exists.mp hsome
  rw [inner_map htype, hnodes] at ih
  obtain ⟨v', hv'⟩ := ih v (Option.mem_toList.mpr hv)
  obtain ⟨es', hes'⟩ := alterEntry_ok (f := strip) (honce key) fun w hw => by
    cases hv.symm.trans hw
    exact ⟨v', hv'.strip⟩
  have haltered := alterEntry_altered hes'
  obtain ⟨w, hw, hstripped⟩ := haltered.field?_some hv
  obtain rfl : v' = w := Except.ok.inj (hv'.strip.symm.trans hstripped)
  have htype' : Value.field? es' "type" = some (.str kind) :=
    (haltered.sameBut.field?_eq (hkeys _ hkind)).trans htype
  refine ⟨.map es', ?_, .intro ⟨fun k => ?_, kind, htype', hnormal es' (by rw [hw]; rfl)⟩ ?_,
    .inside hkind htype haltered.sameBut hv hw hv'.left⟩
  · rw [hstrip, requireKey, if_pos hsome, hes']
    rfl
  · rw [haltered.countP_eq]
    exact honce k
  · intro x hx
    rw [inner_map htype', hnodes] at hx
    cases hw.symm.trans (Option.mem_toList.mp hx)
    exact hv'.normal

/-- The type of a field is stripped, and its default goes with what is left of it. -/
theorem stripField_normal {es : List (Value × Value)} {t t' : Value}
    (honce : ∀ key, es.countP (fun e => e.1.isText key) ≤ 1)
    (htype : Value.field? es "type" = some t) (ht : Normalizes t t') :
    ∃ es', alterEntry strip "type" es = .ok es' ∧
      (∀ key, (dropNullDefault es').countP (fun e => e.1.isText key) ≤ 1) ∧
      Value.field? (dropNullDefault es') "type" = some t' ∧
      (Value.field? (dropNullDefault es') "default" = some .null → isNullType t' = true) ∧
      FieldLeftOf (.map es) (.map (dropNullDefault es')) := by
  obtain ⟨es', hes'⟩ := alterEntry_ok (f := strip) (honce "type") fun w hw => by
    cases htype.symm.trans hw
    exact ⟨t', ht.strip⟩
  have haltered := alterEntry_altered hes'
  obtain ⟨w, hw, hstripped⟩ := haltered.field?_some htype
  obtain rfl : t' = w := Except.ok.inj (ht.strip.symm.trans hstripped)
  have honce' (key : String) : es'.countP (fun e => e.1.isText key) ≤ 1 := by
    rw [haltered.countP_eq]
    exact honce key
  have htype' : Value.field? (dropNullDefault es') "type" = some t' := by
    rw [field?_dropNullDefault es' (by decide), hw]
  refine ⟨es', hes', ?_, htype', ?_, .intro htype htype' ht.left ?_⟩
  · rw [dropNullDefault, hw]
    dsimp only
    intro key
    split
    · exact honce' key
    · exact Nat.le_trans List.filter_sublist.countP_le (honce' key)
  · rw [dropNullDefault, hw]
    dsimp only
    split
    · rename_i hnull
      exact fun _ => hnull
    · intro hdefault
      obtain ⟨e, he, hnull⟩ := Option.map_eq_some_iff.mp hdefault
      have htext := List.find?_some he
      have hkept := (List.mem_filter.mp (List.mem_of_find?_eq_some he)).2
      rw [isNullDefault, isText_eq_same, htext, hnull] at hkept
      cases hkept
  · rw [dropNullDefault, hw]
    dsimp only
    split
    · exact haltered.sameBut
    · exact haltered.sameBut.filter _

theorem stripFields_normal {xs : List Value} (hxs : SoundFields (.list xs))
    (h : ∀ t ∈ xs.filterMap fieldType?, ∃ t', Normalizes t t') :
    ∃ ys, stripFields xs = .ok ys ∧ NormalFields ys ∧ List.Forall₂ FieldLeftOf xs ys ∧
      ∀ t ∈ ys.filterMap fieldType?, Throughout Normal t := by
  induction xs with
  | nil =>
    exact ⟨[], by rw [stripFields]; rfl, List.forall_mem_nil _, .nil, List.forall_mem_nil _⟩
  | cons x xs ih =>
    obtain ⟨es, rfl, honce, hsome⟩ := hxs x List.mem_cons_self
    obtain ⟨t, htype⟩ := Option.isSome_iff_exists.mp hsome
    obtain ⟨t', ht'⟩ := h t (List.mem_filterMap.mpr ⟨_, List.mem_cons_self, htype⟩)
    obtain ⟨es', hes', honce', htype', hdefault, hleft⟩ := stripField_normal honce htype ht'
    obtain ⟨ys, hys, hnormal, hlefts, htypes⟩ := ih (fun x hx => hxs x (List.mem_cons_of_mem _ hx))
      fun t ht => by
        obtain ⟨x, hx, ht⟩ := List.mem_filterMap.mp ht
        exact h t (List.mem_filterMap.mpr ⟨x, List.mem_cons_of_mem _ hx, ht⟩)
    refine ⟨.map (dropNullDefault es') :: ys, ?_, List.forall_mem_cons.mpr ⟨?_, hnormal⟩,
      .cons hleft hlefts, ?_⟩
    · rw [stripFields, requireKey, if_pos hsome, stripEntry_eq, hes', hys]
      rfl
    · exact ⟨_, t', rfl, honce', htype', hdefault⟩
    · have htypes' : (Value.map (dropNullDefault es') :: ys).filterMap fieldType? =
          t' :: ys.filterMap fieldType? := List.filterMap_cons_some htype'
      rw [htypes']
      exact List.forall_mem_cons.mpr ⟨ht'.normal, htypes⟩

theorem stripFieldsNode_normal {v : Value} (hv : SoundFields v)
    (h : ∀ t ∈ (fieldNodes (some v)).filterMap fieldType?, ∃ t', Normalizes t t') :
    ∃ ys, stripFieldsNode v = .ok (.list ys) ∧ NormalFields ys ∧
      List.Forall₂ FieldLeftOf (fieldNodes (some v)) ys ∧
      ∀ t ∈ ys.filterMap fieldType?, Throughout Normal t := by
  have hloose {v : Value} (hloose : looseFields v = .ok (.list [])) (hnone : fieldNodes (some v) = []) :
      ∃ ys, looseFields v = .ok (.list ys) ∧ NormalFields ys ∧
        List.Forall₂ FieldLeftOf (fieldNodes (some v)) ys ∧
        ∀ t ∈ ys.filterMap fieldType?, Throughout Normal t :=
    ⟨[], hloose, List.forall_mem_nil _, by rw [hnone]; exact .nil, List.forall_mem_nil _⟩
  cases v with
  | list xs =>
    obtain ⟨ys, hys, hrest⟩ := stripFields_normal hv h
    exact ⟨ys, by rw [stripFieldsNode, hys]; rfl, hrest⟩
  | tuple xs =>
    cases xs with
    | nil => exact hloose hv rfl
    | cons x xs => cases hv
  | _ => exact hloose hv rfl

theorem record_normal {es : List (Value × Value)} (isError : Bool)
    (honce : ∀ key, es.countP (fun e => e.1.isText key) ≤ 1)
    (htype : Value.field? es "type" = some (.str (if isError then "error" else "record")))
    (hfields : ∀ v, Value.field? es "fields" = some v → SoundFields v)
    (ih : ∀ x ∈ inner (.map es), ∃ x', Normalizes x x') :
    ∃ node', Normalizes (.map es) node' := by
  have hnodes (es : List (Value × Value)) :
      nodesOfKind es (if isError then "error" else "record") =
        (fieldNodes (Value.field? es "fields")).filterMap fieldType? := by
    cases isError <;> rfl
  rw [inner_map htype, hnodes] at ih
  obtain ⟨es', hes'⟩ := alterEntry_ok (f := stripFieldsNode) (honce "fields") fun v hv => by
    rw [hv] at ih
    obtain ⟨ys, hys, -⟩ := stripFieldsNode_normal (hfields v hv) ih
    exact ⟨_, hys⟩
  have haltered := alterEntry_altered hes'
  have hsame := (withFields_stripped hes').1
  -- What is left of the fields is a list, also where there were none.
  have hlist : ∃ ys, Value.field? (withFields es es') "fields" = some (.list ys) ∧ NormalFields ys ∧
      List.Forall₂ FieldLeftOf (fieldNodes (Value.field? es "fields")) ys ∧
      (∀ t ∈ ys.filterMap fieldType?, Throughout Normal t) ∧
      ∀ key, (withFields es es').countP (fun e => e.1.isText key) ≤ 1 := by
    unfold withFields
    cases hv : Value.field? es "fields" with
    | some v =>
      rw [hv] at ih
      obtain ⟨ys, hys, hnormal, hleft, htypes⟩ := stripFieldsNode_normal (hfields v hv) ih
      obtain ⟨w, hw, hstripped⟩ := haltered.field?_some hv
      obtain rfl : Value.list ys = w := Except.ok.inj (hys.symm.trans hstripped)
      rw [Option.isSome_some, if_pos rfl]
      refine ⟨ys, hw, hnormal, hleft, htypes, fun key => ?_⟩
      rw [haltered.countP_eq]
      exact honce key
    | none =>
      rw [Option.isSome_none, if_neg Bool.false_ne_true]
      refine ⟨[], ?_, List.forall_mem_nil _, .nil, List.forall_mem_nil _, fun key => ?_⟩
      · rw [field?_append, haltered.field?_none hv, field?_entry, if_pos rfl]
        rfl
      · rw [List.countP_append, haltered.countP_eq]
        by_cases hkey : key = "fields"
        · have hnone : es.countP (fun e => e.1.isText "fields") = 0 := by
            rw [field?_eq_find?, Option.map_eq_none_iff] at hv
            exact List.countP_eq_zero.mpr (List.find?_eq_none.mp hv)
          rw [hkey, hnone]
          exact Nat.le_of_eq (by decide)
        · have hother : [entry "fields" (.list [])].countP (fun e => e.1.isText key) = 0 := by
            simp [entry, isText, Ne.symm hkey]
          rw [hother]
          exact honce key
  obtain ⟨ys, hys, hnormal, hleft, htypes, honce'⟩ := hlist
  have htype' : Value.field? (withFields es es') "type" =
      some (.str (if isError then "error" else "record")) :=
    (hsame.field?_eq (by decide)).trans htype
  refine ⟨.map (withFields es es'), ?_, .intro ⟨honce', _, htype', ?_⟩ ?_,
    .record (by cases isError <;> decide) htype hsame ?_⟩
  · rw [strip_record htype, hes']
    rfl
  · cases isError with
    | false => exact ⟨ys, hys, hnormal⟩
    | true => exact ⟨ys, hys, hnormal⟩
  · rw [inner_map htype', hnodes, hys]
    exact htypes
  · rw [hys]
    exact hleft

/-- A node that was read, and in which no union stands right inside another, is brought into its
normal form. -/
theorem strip_normal {node : Value} (h : Throughout (fun v => Sound v ∧ Flat v) node) :
    ∃ node', Normalizes node node' := by
  induction h with
  | @intro node here inside ih =>
    obtain ⟨hsound, hflat⟩ := here
    cases node with
    | list xs =>
      obtain ⟨ys, hys, hleft, hnormal⟩ := stripBranches_normal hflat ih
      refine ⟨collapse ys, ?_, throughout_normal_collapse hnormal, .union hleft⟩
      rw [strip, hys]
      rfl
    | map es =>
      have hes : SoundEntries es := hsound
      obtain ⟨kind, htype, hkind⟩ := hes.kind
      unfold SoundOfKind at hkind
      split at hkind
      · exact inside_normal (by decide) hes.once htype hkind (fun _ => rfl) (fun _ h => h)
          (strip_array htype) ih
      · exact inside_normal (by decide) hes.once htype hkind (fun _ => rfl) (fun _ h => h)
          (strip_mapOf htype) ih
      · exact record_normal false hes.once htype hkind ih
      · exact record_normal true hes.once htype hkind ih
      · rename_i harray hmap hrecord herror
        have hother := other_kind harray hmap hrecord herror
        refine ⟨.map es, strip_other htype hother,
          .intro ⟨hes.once, kind, htype, normalOfKind_other hother es⟩ ?_, .other htype hother⟩
        rw [inner_other htype hother]
        exact List.forall_mem_nil _
    | _ =>
      refine ⟨_, by rw [strip.eq_def]; rfl, .intro ?_ (List.forall_mem_nil _), .atom rfl rfl⟩
      exact trivial

/-! ## Nodes that are read -/

theorem throughout_and {P Q : Value → Prop} {node : Value} (hP : Throughout P node)
    (hQ : Throughout Q node) : Throughout (fun v => P v ∧ Q v) node := by
  induction hP with
  | intro here _ ih =>
    cases hQ with
    | intro here' inside' => exact .intro ⟨here, here'⟩ fun x hx => ih x hx (inside' x hx)

/-- All of a node that was read is sound, if nothing in it is marked as checked. -/
theorem sound_of_parse {node : Value} (hnode : node.Keyed) {s : Schema}
    (hparse : parse node = .ok s) (hmarked : Throughout (fun v => isMarked v = false) node) :
    Throughout Sound node := by
  have hsound := parseTop_sound hnode (yields_of_run' hparse)
  clear hparse hnode
  induction hsound with
  | list _ ih =>
    cases hmarked with
    | intro _ inside => exact .intro trivial fun x hx => ih x hx (inside x hx)
  | single _ h =>
    obtain htaken | ⟨-, hsound⟩ := h
    · cases hmarked with
      | intro here _ =>
        rw [isMarked_of_isTaken htaken] at here
        cases here
    · exact hsound

/-- A node that is read as a schema, in which nothing is marked as checked and no union stands right
inside another, can be stripped of nulls.  What is left is in normal form throughout, it keeps what
does not have to go, and it is stripped to itself. -/
theorem strip_normal_form {node : Value} (hnode : node.Keyed) {descriptor : Option String}
    {s : Schema} (hschema : Descriptor.schemaOf node descriptor = .ok s)
    (hmarked : Throughout (fun v => isMarked v = false) node) (hflat : Throughout Flat node) :
    ∃ node', strip node = .ok node' ∧ Throughout Normal node' ∧ LeftOf node node' ∧
      strip node' = .ok node' := by
  have hsound := sound_of_parse hnode (ActiveSchema.parse_of_schemaOf hschema) hmarked
  obtain ⟨node', h⟩ := strip_normal (throughout_and hsound hflat)
  exact ⟨node', h.strip, h.normal, h.left, strip_of_normal h.normal⟩

/-- An array of nullable items. -/
def nullableItems : Value :=
  ofFields [("type", .str "array"), ("items", .list [.str "string", .str "null"])]

/-- A record with a nullable field and an array of nullable items. -/
def nullableRecord : Value := ofFields [
  ("type", .str "record"), ("name", .str "Reading"),
  ("fields", .list [
    ofFields [("name", .str "value"), ("type", .list [.str "null", .str "int"]),
      ("default", .null)],
    ofFields [("name", .str "marks"), ("type", nullableItems)]])]

theorem nullableRecord_keyed : nullableRecord.Keyed := by
  have hstr (text : String) : (Value.str text).Keyed := .atom _ rfl
  have hlist {xs : List Value} (h : ∀ x ∈ xs, x.Keyed) : (Value.list xs).Keyed := .list xs h
  have hitems : nullableItems.Keyed := keyed_ofFields (by decide) (by simp [hstr, hlist])
  have hvalue : (ofFields [("name", .str "value"), ("type", .list [.str "null", .str "int"]),
      ("default", .null)]).Keyed :=
    keyed_ofFields (by decide) (by simp [hstr, hlist, Keyed.atom .null rfl])
  have hmarks : (ofFields [("name", .str "marks"), ("type", nullableItems)]).Keyed :=
    keyed_ofFields (by decide) (by simp [hstr, hitems])
  exact keyed_ofFields (by decide) (by simp [hstr, hlist, hvalue, hmarks])

theorem throughout_nullableRecord {P : Value → Prop} (hrecord : P nullableRecord)
    (hitems : P nullableItems) (hunion : ∀ first second, P (.list [.str first, .str second]))
    (hname : ∀ name, P (.str name)) : Throughout P nullableRecord := by
  have hname (name : String) : Throughout P (.str name) :=
    .intro (hname name) (List.forall_mem_nil _)
  have hunion (first second : String) : Throughout P (.list [.str first, .str second]) :=
    .intro (hunion first second) (by simpa [Schema.inner] using ⟨hname first, hname second⟩)
  have hitems : Throughout P nullableItems :=
    .intro hitems (by
      simpa [Schema.inner, nullableItems, ofFields, nodesOfKind, field?_cons, isText] using hunion _ _)
  refine .intro hrecord ?_
  simpa [Schema.inner, nullableRecord, ofFields, nodesOfKind, fieldNodes, fieldType?, field?_cons, isText]
    using ⟨hunion "null" "int", hitems⟩

theorem nullableRecord_normal_form : ∃ node', strip nullableRecord = .ok node' ∧
    Throughout Normal node' ∧ LeftOf nullableRecord node' ∧ strip node' = .ok node' := by
  have hread : Except.passes (fun _ => true) (Descriptor.schemaOf nullableRecord none) = true := by
    decide +kernel
  obtain ⟨s, hs, -⟩ := Except.of_passes hread
  refine strip_normal_form nullableRecord_keyed hs ?_ ?_
  · exact throughout_nullableRecord (by decide +kernel) (by decide +kernel) (fun _ _ => rfl)
      fun _ => rfl
  · exact throughout_nullableRecord trivial trivial (fun _ _ => by simp [Flat, isList])
      fun _ => trivial

end NullFree
end Avro
end StreamTable
