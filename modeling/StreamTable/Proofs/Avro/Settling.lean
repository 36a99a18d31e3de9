/-
Schemas that are read once more.  A schema that was read without being checked is read from its own
node when rows are checked with it; another one is written as a node and read again, but for
records, which stay.  Stripping comes through that: if a node says one schema and the stripped node
another, then what stands for the second is what stands for the first, stripped.
-/
import StreamTable.Proofs.Avro.Everywhere
import StreamTable.Proofs.Avro.Stripping

namespace StreamTable
namespace Avro

open Value

/-! ## Nodes of stripped schemas -/

namespace Schema

/-- Whether it can be told by the head of a schema's node if the schema is null. -/
def Legible : Schema → Prop
  | .named name => Primitive.ofName? name = none
  | .annotated _ attrs => RegularAttributes attrs
  | .array _ attrs => RegularAttributes attrs
  | .map _ attrs => RegularAttributes attrs
  | .enum _ _ attrs => RegularAttributes attrs
  | .fixed _ _ attrs => RegularAttributes attrs
  | .record _ _ _ attrs => RegularAttributes attrs
  | .unchecked _ => False
  | _ => True

theorem legible {s : Schema} (h : s.Regular) (hread : s.isChecked = true) : s.Legible := by
  cases s with
  | unchecked node => cases hread
  | primitive p => exact trivial
  | named name => exact h
  | annotated p attrs => exact h
  | union branches => exact trivial
  | _ => exact h.1

theorem isNullType_toValue {s : Schema} (h : s.Legible) :
    NullFree.isNullType s.toValue = s.isNull := by
  have hmap {attrs es : List (Value × Value)} {kind : String} (hattrs : RegularAttributes attrs) :
      NullFree.isNullType (.map (attrs ++ entry "type" (.str kind) :: es)) = (kind == "null") := by
    rw [NullFree.isNullType, hattrs.field?_type]
    rfl
  cases s with
  | primitive p => cases p <;> rfl
  | named name =>
    refine beq_eq_false_iff_ne.mpr ?_
    rintro rfl
    cases h
  | annotated p attrs =>
    refine (hmap h).trans ?_
    cases p <;> rfl
  | array items attrs => exact hmap h
  | map values attrs => exact hmap h
  | enum name symbols attrs => exact hmap h
  | fixed name size attrs => exact hmap h
  | record isError name fields attrs =>
    refine (hmap h).trans ?_
    cases isError <;> rfl
  | union branches => rfl
  | unchecked node => exact h.elim

mutual

theorem stripped_legible : ∀ {s : Schema}, s.Regular → s.isChecked = true → s.stripped.Legible
  | .primitive _, h, _ => h
  | .named _, h, _ => h
  | .annotated _ _, h, _ => h
  | .array _ _, h, _ => h.1
  | .map _ _, h, _ => h.1
  | .enum _ _ _, h, _ => h.1
  | .fixed _ _ _, h, _ => h.1
  | .record _ _ _ _, h, _ => h.1
  | .union branches, h, hread => by
    have hbranches := strippedBranches_legible h (inherited_everywhere.union hread)
    rw [stripped]
    match strippedBranches branches, hbranches with
    | [], _ => exact trivial
    | [b], hb => exact hb b List.mem_cons_self
    | _ :: _ :: _, _ => exact trivial
  | .unchecked _, _, hread => by cases hread

theorem strippedBranches_legible : ∀ {branches : List Schema}, RegularBranches branches →
    branchesEverywhere isRead branches = true → ∀ b ∈ strippedBranches branches, b.Legible
  | [], _, _ => nofun
  | s :: rest, h, hread => by
    obtain ⟨hs, hrest⟩ := inherited_everywhere.branch hread
    intro b hb
    rw [strippedBranches] at hb
    cases hnull : s.isNull with
    | true =>
      rw [hnull] at hb
      exact strippedBranches_legible h.2 hrest b hb
    | false =>
      rw [hnull] at hb
      obtain rfl | hb := List.mem_cons.mp hb
      · exact stripped_legible h.1 hs
      · exact strippedBranches_legible h.2 hrest b hb

end

theorem collapse_branchValues (branches : List Schema) :
    NullFree.collapse (branchValues branches) = (collapse branches).toValue := by
  match branches with
  | [] => rfl
  | [s] => rfl
  | s :: t :: rest => rfl

/-- A field's entries without a null default are those of the stripped field. -/
theorem dropNullDefault_append {f : FieldHead} (hf : f.Regular) {s : Schema} (hs : s.Legible) :
    NullFree.dropNullDefault
        (f.attributes ++ [entry "name" f.name, entry "type" s.toValue]) =
      (f.stripped s.isNull).attributes ++
        [entry "name" (f.stripped s.isNull).name, entry "type" s.toValue] := by
  have hname : NullFree.isNullDefault (entry "name" f.name) = false := rfl
  have htype : NullFree.isNullDefault (entry "type" s.toValue) = false := rfl
  rw [NullFree.dropNullDefault, hf.field?_append (.inl rfl), field?_entry, field?_entry]
  simp only [if_true, String.reduceEq, if_false, isNullType_toValue hs]
  cases s.isNull with
  | true => rfl
  | false => simp [FieldHead.stripped, hname, htype]

mutual

/-- The node of a stripped schema is the schema's node, stripped. -/
theorem strip_toValue : ∀ {s : Schema}, s.Regular → s.isChecked = true →
    NullFree.strip s.toValue = .ok s.stripped.toValue
  | .primitive p, _, _ => by
    rw [toValue, NullFree.strip.eq_def]
    rfl
  | .named name, _, _ => by
    rw [toValue, NullFree.strip.eq_def]
    rfl
  | .annotated p attrs, h, _ => by
    refine NullFree.strip_other (h.field?_type _ _) ?_
    cases p <;> decide
  | .enum name symbols attrs, h, _ =>
    NullFree.strip_other (h.1.field?_type _ _) (by decide)
  | .fixed name size attrs, h, _ =>
    NullFree.strip_other (h.1.field?_type _ _) (by decide)
  | .array items attrs, h, hread => by
    have hitems := strip_toValue h.2 (inherited_everywhere.array hread)
    have hentries : NullFree.alterEntry NullFree.strip "items"
        [entry "type" (.str "array"), entry "items" items.toValue] =
          .ok [entry "type" (.str "array"), entry "items" items.stripped.toValue] := by
      simp [NullFree.alterEntry, entry, isText, hitems, Except.bind, Except.map]
    rw [toValue, NullFree.strip_array (h.1.field?_type _ _),
      NullFree.requireKey, h.1.field?_typed (by decide),
      NullFree.alterEntry_append (fun e he => h.1.keys e he "items" (by decide)) hentries]
    rfl
  | .map values attrs, h, hread => by
    have hvalues := strip_toValue h.2 (inherited_everywhere.map hread)
    have hentries : NullFree.alterEntry NullFree.strip "values"
        [entry "type" (.str "map"), entry "values" values.toValue] =
          .ok [entry "type" (.str "map"), entry "values" values.stripped.toValue] := by
      simp [NullFree.alterEntry, entry, isText, hvalues, Except.bind, Except.map]
    rw [toValue, NullFree.strip_mapOf (h.1.field?_type _ _),
      NullFree.requireKey, h.1.field?_typed (by decide),
      NullFree.alterEntry_append (fun e he => h.1.keys e he "values" (by decide)) hentries]
    rfl
  | .record isError name fields attrs, h, hread => by
    have hfields := stripFields_fieldValues h.2 (inherited_everywhere.record hread)
    have hentries (kind : Value) : NullFree.alterEntry NullFree.stripFieldsNode "fields"
        [entry "type" kind, entry "name" (.str name),
          entry "fields" (.list (fieldValues fields))] =
        .ok [entry "type" kind, entry "name" (.str name),
          entry "fields" (.list (fieldValues (strippedFields fields)))] := by
      simp [NullFree.alterEntry, NullFree.stripFieldsNode, entry, isText, hfields, Except.bind,
        Except.map]
    rw [toValue, NullFree.strip_record (h.1.field?_type _ _),
      NullFree.alterEntry_append (fun e he => h.1.keys e he "fields" (by decide))
        (hentries _)]
    have hsome (kind : Value) : (Value.field? (attrs ++ [entry "type" kind,
        entry "name" (.str name), entry "fields" (.list (fieldValues fields))])
        "fields").isSome := by
      rw [h.1.field?_named (by decide)]
      rfl
    exact congrArg (fun es => Except.ok (Value.map es)) (if_pos (hsome _))
  | .union branches, h, hread => by
    rw [toValue, NullFree.strip, stripBranches_branchValues h (inherited_everywhere.union hread),
      stripped, ← collapse_branchValues]
    rfl
  | .unchecked node, _, hread => by cases hread

theorem stripFields_fieldValues : ∀ {fields : List Field}, RegularFields fields →
    fieldsEverywhere isRead fields = true →
    NullFree.stripFields (fieldValues fields) = .ok (fieldValues (strippedFields fields))
  | [], _, _ => by
    rw [fieldValues, NullFree.stripFields]
    rfl
  | (f, s) :: rest, h, hread => by
    obtain ⟨hs, hrest⟩ := inherited_everywhere.field hread
    have hentries : NullFree.alterEntry NullFree.strip "type"
        [entry "name" f.name, entry "type" s.toValue] =
          .ok [entry "name" f.name, entry "type" s.stripped.toValue] := by
      simp [NullFree.alterEntry, entry, isText, strip_toValue h.2.1 hs, Except.bind, Except.map]
    rw [fieldValues, NullFree.stripFields, NullFree.requireKey,
      h.1.field?_append (.inl rfl), field?_entry, field?_entry,
      NullFree.stripEntry_eq,
      NullFree.alterEntry_append (fun e he => (h.1.keys e he).1) hentries,
      stripFields_fieldValues h.2.2 hrest, strippedFields, fieldValues,
      ← dropNullDefault_append h.1 (stripped_legible h.2.1 hs)]
    rfl

theorem stripBranches_branchValues : ∀ {branches : List Schema}, RegularBranches branches →
    branchesEverywhere isRead branches = true →
    NullFree.stripBranches (branchValues branches) = .ok (branchValues (strippedBranches branches))
  | [], _, _ => by
    rw [branchValues, NullFree.stripBranches]
    rfl
  | s :: rest, h, hread => by
    obtain ⟨hs, hrest⟩ := inherited_everywhere.branch hread
    rw [branchValues, NullFree.stripBranches, isNullType_toValue (legible h.1 hs),
      strippedBranches, stripBranches_branchValues h.2 hrest, strip_toValue h.1 hs]
    cases s.isNull <;> rfl

end

end Schema

/-! ## Regular nodes -/

namespace NullFree

/-- Whether schemas may stand under a key of a node. -/
def holdsSchemas (key : String) : Bool := ["type", "fields", "items", "values"].contains key

/-- An object is stripped to an object; only what stands under one key changes. -/
theorem strip_map {es : List (Value × Value)} {node : Value} (h : strip (.map es) = .ok node) :
    ∃ key es', holdsSchemas key = true ∧ node = .map es' ∧ SameBut key es es' := by
  rw [strip.eq_def] at h
  dsimp only at h
  simp only [stripEntry_eq, stripFieldsEntry_eq] at h
  split at h
  iterate 2
    · obtain ⟨es', hes', h⟩ := Except.of_bind_ok h
      cases h
      exact ⟨"fields", _, by decide, rfl, (withFields_stripped hes').1⟩
  · obtain ⟨-, -, h⟩ := Except.of_bind_ok h
    obtain ⟨es', hes', h⟩ := Except.of_bind_ok h
    cases h
    exact ⟨"items", es', by decide, rfl, (alterEntry_altered hes').sameBut⟩
  · obtain ⟨-, -, h⟩ := Except.of_bind_ok h
    obtain ⟨es', hes', h⟩ := Except.of_bind_ok h
    cases h
    exact ⟨"values", es', by decide, rfl, (alterEntry_altered hes').sameBut⟩
  iterate 2
    · obtain ⟨es', hes', h⟩ := Except.of_bind_ok h
      cases h
      exact ⟨"type", es', by decide, rfl, (alterEntry_altered hes').sameBut⟩
  · cases h
    exact ⟨"type", es, by decide, rfl, rfl⟩

theorem collapse_regular {xs : List Value} (h : ∀ x ∈ xs, x.Regular) : (collapse xs).Regular := by
  match xs with
  | [] => exact .str "null"
  | [x] => exact h x List.mem_cons_self
  | x :: y :: rest => exact .list _ h

theorem countP_isDefault {key : String} {es es' : List (Value × Value)}
    (h : SameBut key es es') (hkey : holdsSchemas key = true) :
    es'.countP isDefault = es.countP isDefault := by
  rw [List.countP_eq_length_filter, List.countP_eq_length_filter]
  refine congrArg List.length (h.filter_eq fun e he => ?_)
  rw [isText_eq_same, same_str] at he
  rw [isDefault, he, isText, beq_eq_false_iff_ne]
  rintro rfl
  exact absurd hkey (by decide)

theorem looseFields_regular {v v' : Value} (h : looseFields v = .ok v') : v'.Regular := by
  have hnone : (Value.list []).Regular := .list [] (List.forall_mem_nil _)
  unfold looseFields at h
  split at h
  · split at h
    · cases h
      exact hnone
    · cases h
  all_goals first | (cases h; exact hnone) | cases h

theorem dropNullDefault_sublist (es : List (Value × Value)) : (dropNullDefault es).Sublist es := by
  unfold dropNullDefault
  split
  · split
    · exact List.Sublist.refl es
    · exact List.filter_sublist
  · exact List.Sublist.refl es

mutual

/-- A stripped node is regular if the node was. -/
theorem strip_regular : ∀ {node node' : Value}, strip node = .ok node' → node.Regular →
    node'.Regular
  | .list xs, node', h, hnode => by
    rw [strip] at h
    obtain ⟨branches, hbranches, h⟩ := Except.of_bind_ok h
    cases h
    exact collapse_regular (stripBranches_regular hbranches hnode.items)
  | .map es, node', h, hnode => by
    obtain ⟨key, es', hkey, rfl, hsame⟩ := strip_map h
    refine .map es' ?_ ?_
    · rw [countP_isDefault hsame hkey]
      exact hnode.entries.defaultOnce
    · rw [strip.eq_def] at h
      dsimp only at h
      split at h
      iterate 2
        · obtain ⟨es', hes', h⟩ := Except.of_bind_ok h
          cases h
          have hvalues := stripFieldsEntry_regular hes' hnode.entries.values
          intro e he
          unfold withFields at he
          split at he
          · exact hvalues e he
          · obtain he | he := List.mem_append.mp he
            · exact hvalues e he
            · rw [List.mem_singleton.mp he]
              exact .list [] (List.forall_mem_nil _)
      iterate 2
        · obtain ⟨-, -, h⟩ := Except.of_bind_ok h
          obtain ⟨es', hes', h⟩ := Except.of_bind_ok h
          cases h
          exact stripEntry_regular hes' hnode.entries.values
      iterate 2
        · obtain ⟨es', hes', h⟩ := Except.of_bind_ok h
          cases h
          exact stripEntry_regular hes' hnode.entries.values
      · cases h
        exact hnode.entries.values
  | .null, _, h, hnode | .bool _, _, h, hnode | .int _, _, h, hnode | .float _, _, h, hnode
  | .str _, _, h, hnode | .bytes _, _, h, hnode | .bytearray _, _, h, hnode | .date _, _, h, hnode
  | .datetime _, _, h, hnode | .time _, _, h, hnode | .decimal _, _, h, hnode
  | .uuid _, _, h, hnode | .tuple _, _, h, hnode | .set _, _, h, hnode => by
    cases h
    exact hnode

theorem stripBranches_regular : ∀ {xs branches : List Value}, stripBranches xs = .ok branches →
    (∀ x ∈ xs, x.Regular) → ∀ b ∈ branches, b.Regular
  | [], branches, h, _ => by
    rw [stripBranches] at h
    cases h
    nofun
  | x :: xs, branches, h, hxs => by
    have hrest {branches : List Value} (h : stripBranches xs = .ok branches) :=
      stripBranches_regular h fun y hy => hxs y (List.mem_cons_of_mem x hy)
    rw [stripBranches] at h
    split at h
    · exact hrest h
    · obtain ⟨b, hb, h⟩ := Except.of_bind_ok h
      obtain ⟨bs, hbs, h⟩ := Except.of_bind_ok h
      cases h
      exact List.forall_mem_cons.mpr ⟨strip_regular hb (hxs x List.mem_cons_self), hrest hbs⟩

theorem stripEntry_regular : ∀ {key : String} {es es' : List (Value × Value)},
    stripEntry key es = .ok es' → (∀ e ∈ es, e.2.Regular) → ∀ e ∈ es', e.2.Regular
  | key, [], es', h, _ => by
    rw [stripEntry] at h
    cases h
    nofun
  | key, (k, v) :: es, es', h, hes => by
    rw [stripEntry_eq] at h
    obtain ⟨v', rest, hv, hrest, rfl⟩ := alterEntry_cons.mp h
    rw [← stripEntry_eq] at hrest
    obtain ⟨hvalue, hes⟩ := List.forall_mem_cons.mp hes
    refine List.forall_mem_cons.mpr ⟨?_, stripEntry_regular hrest hes⟩
    split at hv
    · exact strip_regular hv hvalue
    · cases hv
      exact hvalue

theorem stripFieldsEntry_regular : ∀ {es es' : List (Value × Value)},
    stripFieldsEntry es = .ok es' → (∀ e ∈ es, e.2.Regular) → ∀ e ∈ es', e.2.Regular
  | [], es', h, _ => by
    rw [stripFieldsEntry] at h
    cases h
    nofun
  | (k, v) :: es, es', h, hes => by
    rw [stripFieldsEntry_eq] at h
    obtain ⟨v', rest, hv, hrest, rfl⟩ := alterEntry_cons.mp h
    rw [← stripFieldsEntry_eq] at hrest
    obtain ⟨hvalue, hes⟩ := List.forall_mem_cons.mp hes
    refine List.forall_mem_cons.mpr ⟨?_, stripFieldsEntry_regular hrest hes⟩
    split at hv
    · cases v with
      | list fs =>
        obtain ⟨fs', hfs, hv⟩ := Except.of_bind_ok hv
        cases hv
        exact .list fs' (stripFields_regular hfs hvalue.items)
      | _ =>
        simp only [stripFieldsNode] at hv
        exact looseFields_regular hv
    · cases hv
      exact hvalue

theorem stripFields_regular : ∀ {fs fs' : List Value}, stripFields fs = .ok fs' →
    (∀ f ∈ fs, f.Regular) → ∀ f ∈ fs', f.Regular
  | [], fs', h, _ => by
    rw [stripFields] at h
    cases h
    nofun
  | .map es :: fs, fs', h, hfs => by
    rw [stripFields] at h
    obtain ⟨-, -, h⟩ := Except.of_bind_ok h
    obtain ⟨es', hes', h⟩ := Except.of_bind_ok h
    obtain ⟨rest, hrest, h⟩ := Except.of_bind_ok h
    cases h
    obtain ⟨hfield, hfs⟩ := List.forall_mem_cons.mp hfs
    refine List.forall_mem_cons.mpr ⟨?_, stripFields_regular hrest hfs⟩
    have hsame : SameBut "type" es es' := by
      rw [stripEntry_eq] at hes'
      exact (alterEntry_altered hes').sameBut
    have hentries : RegularEntries es' :=
      ⟨(countP_isDefault hsame (by decide)).symm ▸ hfield.entries.defaultOnce,
        stripEntry_regular hes' hfield.entries.values⟩
    exact (hentries.sublist (dropNullDefault_sublist es')).map

end

/-! ## Marked nodes -/

def isMark (k : Value) : Bool := k.isText Schema.checkedKey || k.isText Schema.namedKey

theorem field?_unmarked {es : List (Value × Value)} {key : String}
    (hkey : isMark (.str key) = false) :
    Value.field? (es.filter fun e => !isMark e.1) key = Value.field? es key := by
  refine field?_filter fun e _ he => ?_
  rw [isText_eq_same, same_str] at he
  rw [he, hkey]
  rfl

theorem isNullType_unmarked (es : List (Value × Value)) :
    isNullType (Schema.unmarked (.map es)) = isNullType (.map es) := by
  have htype : Value.field? (es.filter fun e => !isMark e.1) "type" = Value.field? es "type" :=
    field?_unmarked (by decide)
  rw [isNullType, ← htype]
  rfl

/-- The marks of a node play no part when it is stripped. -/
theorem strip_unmarked {es : List (Value × Value)} {node : Value}
    (h : strip (.map es) = .ok node) :
    strip (Schema.unmarked (.map es)) = .ok (Schema.unmarked node) := by
  have hunmarked (es : List (Value × Value)) :
      Schema.unmarked (.map es) = .map (es.filter fun e => !isMark e.1) := rfl
  have hrequire {key : String} (hkey : isMark (.str key) = false) :
      requireKey (es.filter fun e => !isMark e.1) key = requireKey es key := by
    rw [requireKey, requireKey, field?_unmarked hkey]
  rw [hunmarked, strip.eq_def]
  rw [strip.eq_def] at h
  dsimp only at h ⊢
  rw [field?_unmarked (by decide)]
  simp only [stripEntry_eq, stripFieldsEntry_eq] at h ⊢
  have hfilter {f : Value → Except DataFault Value} {key : String} {es' : List (Value × Value)}
      (h : alterEntry f key es = .ok es') :
      alterEntry f key (es.filter fun e => !isMark e.1) = .ok (es'.filter fun e => !isMark e.1) :=
    alterEntry_filter (q := fun k => !isMark k) h
  have hfields {es' : List (Value × Value)} :
      withFields (es.filter fun e => !isMark e.1) (es'.filter fun e => !isMark e.1) =
        (withFields es es').filter fun e => !isMark e.1 := by
    rw [withFields, withFields, field?_unmarked (by decide)]
    split
    · rfl
    · rw [List.filter_append]
      rfl
  split at h
  iterate 2
    · obtain ⟨es', hes', h⟩ := Except.of_bind_ok h
      cases h
      rw [hfilter hes']
      exact congrArg (fun es => Except.ok (Value.map es)) hfields
  iterate 2
    · obtain ⟨u, hkey, h⟩ := Except.of_bind_ok h
      obtain ⟨es', hes', h⟩ := Except.of_bind_ok h
      cases h
      rw [hrequire (by decide), hkey, hfilter hes']
      rfl
  iterate 2
    · obtain ⟨es', hes', h⟩ := Except.of_bind_ok h
      cases h
      rw [hfilter hes']
      rfl
  · cases h
    rfl

end NullFree

namespace Schema

theorem isTakenAsIs_stripped {es es' : List (Value × Value)}
    (h : NullFree.strip (.map es) = .ok (.map es')) : isTakenAsIs es' = isTakenAsIs es := by
  obtain ⟨key, es'', hkey, hnode, hsame⟩ := NullFree.strip_map h
  cases hnode
  have hchecked : checkedKey ≠ key := by
    rintro rfl
    exact absurd hkey (by decide)
  have hnamed : namedKey ≠ key := by
    rintro rfl
    exact absurd hkey (by decide)
  rw [isTakenAsIs, isTakenAsIs, hsame.field?_eq hchecked, hsame.field?_eq hnamed]

/-! ## What stands for a stripped schema -/

theorem reread_stripped {s t t' : Schema} (hs : s.Regular) (hread : s.isChecked = true)
    (hunion : s.tag ≠ .union) (ht : Yields (reread s) t) (ht' : Yields (reread s.stripped) t') :
    t' = t.stripped := by
  have hnode := strip_toValue hs hread
  cases s with
  | record isError name fields attrs =>
    obtain ⟨-, -, ht⟩ := yields_bind ht
    obtain ⟨-, -, ht'⟩ := yields_bind ht'
    cases yields_pure ht
    cases yields_pure ht'
    rfl
  | union branches => exact absurd rfl hunion
  | unchecked node => cases hread
  | _ => exact (parseOne_yields ht').unique ((parseOne_yields ht).stripped hnode)

/-- A node is read as a schema that another one stands for. -/
def Settles (node : Value) (t : Schema) : Prop :=
  ∃ s, Yields (parseTop node) s ∧ Yields (reread s) t

theorem Settles.readFrom {t : Schema} {es : List (Value × Value)}
    (h : Settles (.map es) t) (hmark : isTakenAsIs es = true) :
    t.ReadFrom (unmarked (.map es)) .verbatim := by
  obtain ⟨s, hs, ht⟩ := h
  have hs := parseTop_map hs
  rw [if_pos hmark] at hs
  rw [hs, reread] at ht
  exact parseNode_yields ht

theorem forall₂_parseTops {xs : List Value} {ss : List Schema} (h : Yields (parseTops xs) ss) :
    List.Forall₂ (fun x s => Yields (parseTop x) s) xs ss := by
  induction xs generalizing ss with
  | nil =>
    rw [parseTops] at h
    cases yields_pure h
    exact .nil
  | cons x xs ih =>
    rw [parseTops] at h
    obtain ⟨s, hs, h⟩ := yields_bind h
    obtain ⟨rest, hrest, h⟩ := yields_bind h
    cases yields_pure h
    exact .cons hs (ih hrest)

theorem forall₂_rereadAll {ss ts : List Schema} (h : Yields (rereadAll ss) ts) :
    List.Forall₂ (fun s t => Yields (reread s) t) ss ts := by
  induction ss generalizing ts with
  | nil =>
    rw [rereadAll] at h
    cases yields_pure h
    exact .nil
  | cons s ss ih =>
    rw [rereadAll] at h
    obtain ⟨t, ht, h⟩ := yields_bind h
    obtain ⟨rest, hrest, h⟩ := yields_bind h
    cases yields_pure h
    exact .cons ht (ih hrest)

theorem forall₂_settles {xs : List Value} {ss ts : List Schema}
    (hss : List.Forall₂ (fun x s => Yields (parseTop x) s) xs ss)
    (hts : List.Forall₂ (fun s t => Yields (reread s) t) ss ts) :
    List.Forall₂ Settles xs ts := by
  induction hss generalizing ts with
  | nil =>
    cases hts
    exact .nil
  | cons hx _ ih =>
    cases hts with
    | cons hy hrest => exact .cons ⟨_, hx, hy⟩ (ih hrest)

/-- The elements of a list at the top settle by themselves. -/
theorem Settles.items {xs : List Value} {t : Schema} (h : Settles (.list xs) t) :
    ∃ ts, t = .union ts ∧ List.Forall₂ Settles xs ts := by
  obtain ⟨s, hs, ht⟩ := h
  rw [parseTop] at hs
  obtain ⟨ss, hss, hs⟩ := yields_bind hs
  rw [yields_pure hs, reread] at ht
  obtain ⟨ts, hts, ht⟩ := yields_bind ht
  exact ⟨ts, yields_pure ht, forall₂_settles (forall₂_parseTops hss) (forall₂_rereadAll hts)⟩

theorem Settles.null {t : Schema} (h : Settles (.str "null") t) : t = .primitive .null := by
  have hnull : (Schema.primitive .null).ReadFrom (.str "null") .top := rfl
  obtain ⟨s, hs, ht⟩ := h
  have hs : s.ReadFrom (.str "null") .top := parseTop_atom hs rfl rfl
  rw [hs.unique hnull] at ht
  exact (parseOne_yields ht).unique hnull

theorem Settles.collapse {xs : List Value} {t : Schema} (h : Settles (NullFree.collapse xs) t) :
    ∃ ts, t = Schema.collapse ts ∧ List.Forall₂ Settles xs ts := by
  match xs with
  | [] => exact ⟨[], h.null, .nil⟩
  | [x] => exact ⟨[t], rfl, .cons h .nil⟩
  | x :: y :: rest =>
    obtain ⟨ts, rfl, hts⟩ := h.items
    cases hts with
    | cons hx hrest =>
      cases hrest with
      | cons hy hrest => exact ⟨_, rfl, .cons hx (.cons hy hrest)⟩

/-- Only a list says a union. -/
theorem ReadFrom.tag_ne_union {s : Schema} {node : Value} {scope : Scope}
    (h : s.ReadFrom node scope) (hlist : isList node = false) : s.tag ≠ .union := by
  cases s with
  | union branches =>
    obtain ⟨xs, hnode, -⟩ := h
    rw [hnode] at hlist
    cases hlist
  | _ => nofun

theorem Settles.isNull {x : Value} {t : Schema} (h : Settles x t) (hx : x.Regular) :
    NullFree.isNullType x = t.isNull := by
  have hread {s : Schema} (hs : s.ReadFrom x .top) (hunion : s.tag ≠ .union)
      (ht : Yields (reread s) t) : NullFree.isNullType x = t.isNull := by
    rw [NullFree.isNullType_eq hs]
    have hnode := isNullType_toValue (legible (hs.regular hx) hs.isChecked)
    cases s with
    | record isError name fields attrs =>
      obtain ⟨-, -, ht⟩ := yields_bind ht
      rw [yields_pure ht]
    | union branches => exact absurd rfl hunion
    | unchecked node => exact hs.elim
    | _ => exact hnode.symm.trans (NullFree.isNullType_eq (parseOne_yields ht))
  cases x with
  | list xs =>
    obtain ⟨ts, rfl, -⟩ := h.items
    rfl
  | map es =>
    cases hmark : isTakenAsIs es with
    | true =>
      rw [← NullFree.isNullType_eq (h.readFrom hmark)]
      exact (NullFree.isNullType_unmarked es).symm
    | false =>
      obtain ⟨s, hs, ht⟩ := h
      have hs := parseTop_map hs
      rw [hmark] at hs
      exact hread hs (ReadFrom.tag_ne_union hs rfl) ht
  | _ =>
    obtain ⟨s, hs, ht⟩ := h
    have hs := parseTop_atom hs rfl rfl
    exact hread hs (hs.tag_ne_union rfl) ht

theorem ReadFrom.stripped_of_text {s : Schema} {u : String} {scope : Scope}
    (h : s.ReadFrom (.str u) scope) : s.stripped = s := by
  have htag := h.tag_eq
  rw [tagOf] at htag
  cases s with
  | primitive p => rfl
  | named name => rfl
  | _ => split at htag <;> cases htag

theorem Settles.stripped_atom {node node' : Value} {t t' : Schema} (hnode : node.Regular)
    (h : Settles node t) (hlist : isList node = false) (hmap : isMap node = false)
    (hstrip : NullFree.strip node = .ok node') (h' : Settles node' t') : t' = t.stripped := by
  obtain ⟨s, hs, ht⟩ := h
  have hs := parseTop_atom hs hlist hmap
  have htag := hs.tag_eq
  cases node with
  | list xs => cases hlist
  | map es => cases hmap
  | str u =>
    cases hstrip
    obtain ⟨s', hs', ht'⟩ := h'
    rw [(parseTop_atom hs' rfl rfl).unique hs, ← hs.stripped_of_text] at ht'
    exact reread_stripped (hs.regular hnode) hs.isChecked (hs.tag_ne_union rfl) ht ht'
  | _ =>
    cases s with
    | unchecked node => exact hs.elim
    | _ => cases htag

mutual

/-- What stands for a stripped node is what stands for the node, stripped. -/
theorem Settles.stripped : ∀ {node node' : Value} {t t' : Schema}, node.Regular →
    Settles node t → NullFree.strip node = .ok node' → Settles node' t' → t' = t.stripped
  | .list xs, node', t, t', hnode, h, hstrip, h' => by
    rw [NullFree.strip] at hstrip
    obtain ⟨xs', hxs', hstrip⟩ := Except.of_bind_ok hstrip
    cases hstrip
    obtain ⟨ts, rfl, hts⟩ := h.items
    obtain ⟨ts', rfl, hts'⟩ := h'.collapse
    rw [settles_strippedBranches hnode.items hts hxs' hts', stripped]
  | .map es, node', t, t', hnode, h, hstrip, h' => by
    obtain ⟨key, es', -, rfl, -⟩ := NullFree.strip_map hstrip
    have hmark' := isTakenAsIs_stripped hstrip
    cases hmark : isTakenAsIs es with
    | true =>
      exact (h'.readFrom (hmark'.trans hmark)).unique
        ((h.readFrom hmark).stripped (NullFree.strip_unmarked hstrip))
    | false =>
      rw [hmark] at hmark'
      obtain ⟨s, hs, ht⟩ := h
      obtain ⟨s', hs', ht'⟩ := h'
      have hs := parseTop_map hs
      have hs' := parseTop_map hs'
      rw [hmark] at hs
      rw [hmark'] at hs'
      have hs : s.ReadFrom (.map es) .top := hs
      have hs' : s'.ReadFrom (.map es') .top := hs'
      rw [hs'.unique (hs.stripped hstrip)] at ht'
      exact reread_stripped (hs.regular hnode) hs.isChecked (hs.tag_ne_union rfl) ht ht'
  | .str _, _, _, _, hnode, h, hstrip, h' | .null, _, _, _, hnode, h, hstrip, h'
  | .bool _, _, _, _, hnode, h, hstrip, h' | .int _, _, _, _, hnode, h, hstrip, h'
  | .float _, _, _, _, hnode, h, hstrip, h' | .bytes _, _, _, _, hnode, h, hstrip, h'
  | .bytearray _, _, _, _, hnode, h, hstrip, h' | .date _, _, _, _, hnode, h, hstrip, h'
  | .datetime _, _, _, _, hnode, h, hstrip, h' | .time _, _, _, _, hnode, h, hstrip, h'
  | .decimal _, _, _, _, hnode, h, hstrip, h' | .uuid _, _, _, _, hnode, h, hstrip, h'
  | .tuple _, _, _, _, hnode, h, hstrip, h' | .set _, _, _, _, hnode, h, hstrip, h' =>
    h.stripped_atom hnode rfl rfl hstrip h'

theorem settles_strippedBranches : ∀ {xs xs' : List Value} {ts ts' : List Schema},
    (∀ x ∈ xs, x.Regular) → List.Forall₂ Settles xs ts → NullFree.stripBranches xs = .ok xs' →
    List.Forall₂ Settles xs' ts' → ts' = strippedBranches ts
  | [], xs', ts, ts', _, h, hstrip, h' => by
    cases h
    cases hstrip
    cases h'
    rfl
  | x :: xs, xs', ts, ts', hxs, h, hstrip, h' => by
    cases h with
    | @cons _ t _ rest ht hrest =>
      have hx := hxs x List.mem_cons_self
      have hxs := fun y hy => hxs y (List.mem_cons_of_mem x hy)
      rw [NullFree.stripBranches, ht.isNull hx] at hstrip
      rw [strippedBranches]
      cases hnull : t.isNull with
      | true =>
        rw [hnull] at hstrip
        exact settles_strippedBranches hxs hrest hstrip h'
      | false =>
        rw [hnull] at hstrip
        obtain ⟨x', hx', hstrip⟩ := Except.of_bind_ok hstrip
        obtain ⟨xs'', hxs'', hstrip⟩ := Except.of_bind_ok hstrip
        cases hstrip
        cases h' with
        | cons ht' hrest' =>
          rw [ht.stripped hx hx' ht', settles_strippedBranches hxs hrest hxs'' hrest']
          rfl

end

/-- What stands for the projection of a node is what stands for its schema, stripped. -/
theorem settle_stripped {node node' : Value} {s p t t' : Schema} (hnode : node.Regular)
    (hs : parse node = .ok s) (hstrip : NullFree.strip node = .ok node') (hp : parse node' = .ok p)
    (ht : s.settle = .ok t) (ht' : p.settle = .ok t') : t' = t.stripped :=
  Settles.stripped hnode ⟨s, yields_of_run' hs, yields_of_run' ht⟩ hstrip
    ⟨p, yields_of_run' hp, yields_of_run' ht'⟩

end Schema
end Avro
end StreamTable
