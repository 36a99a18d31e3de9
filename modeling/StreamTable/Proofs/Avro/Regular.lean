/-
Regular schemas: those that are read from regular nodes.  No value in them has a tuple inside, no
field has two defaults, the attributes hold none of the keys that belong to a kind of schema, and a
reference is to no primitive type.

The node of a regular schema is regular, so a schema that is read once more stays regular.
-/
import StreamTable.Proofs.Avro.Reading

namespace StreamTable
namespace Avro

open Value

/-- The keys of a node that are no attributes, but for the documentation. -/
def ownKeys : List String :=
  ["type", "name", "namespace", "fields", "items", "size", "symbols", "values"]

structure RegularAttributes (attrs : Attributes) : Prop where
  entries : RegularEntries attrs
  keys : ∀ e ∈ attrs, ∀ key ∈ ownKeys, e.1.isText key = false

structure FieldHead.Regular (f : FieldHead) : Prop where
  name : f.name.Regular
  entries : RegularEntries f.attributes
  keys : ∀ e ∈ f.attributes, e.1.isText "type" = false ∧ e.1.isText "name" = false

theorem RegularAttributes.field?_append {attrs : Attributes} (h : RegularAttributes attrs)
    {key : String} (hkey : key ∈ ownKeys) (es : List (Value × Value)) :
    Value.field? (attrs ++ es) key = Value.field? es key := by
  rw [Value.field?_append, field?_eq_none fun e he => h.keys e he key hkey]
  rfl

theorem RegularAttributes.field?_type {attrs : Attributes} (h : RegularAttributes attrs)
    (type : Value) (own : List (Value × Value)) :
    Value.field? (attrs ++ entry "type" type :: own) "type" = some type := by
  rw [h.field?_append (by decide), field?_entry, if_pos rfl]

/-- What an object holds under a key beside its type. -/
theorem RegularAttributes.field?_typed {attrs : Attributes} (h : RegularAttributes attrs)
    {key : String} (hkey : key ∈ ownKeys ∧ key ≠ "type") (type v : Value) :
    Value.field? (attrs ++ [entry "type" type, entry key v]) key = some v := by
  rw [h.field?_append hkey.1, field?_entry, if_neg (Ne.symm hkey.2), field?_entry, if_pos rfl]

/-- What an object holds under a key beside its type and its name. -/
theorem RegularAttributes.field?_named {attrs : Attributes} (h : RegularAttributes attrs)
    {key : String} (hkey : key ∈ ownKeys ∧ key ≠ "type" ∧ key ≠ "name") (type name v : Value) :
    Value.field? (attrs ++ [entry "type" type, entry "name" name, entry key v]) key = some v := by
  rw [h.field?_append hkey.1, field?_entry, if_neg (Ne.symm hkey.2.1), field?_entry,
    if_neg (Ne.symm hkey.2.2), field?_entry, if_pos rfl]

theorem FieldHead.Regular.field?_append {f : FieldHead} (h : f.Regular) {key : String}
    (hkey : key = "type" ∨ key = "name") (es : List (Value × Value)) :
    Value.field? (f.attributes ++ es) key = Value.field? es key := by
  rw [Value.field?_append, field?_eq_none fun e he => ?_]
  · rfl
  · obtain rfl | rfl := hkey
    · exact (h.keys e he).1
    · exact (h.keys e he).2

namespace Schema

mutual

def Regular : Schema → Prop
  | .primitive _ => True
  | .named name => Primitive.ofName? name = none
  | .annotated _ attrs => RegularAttributes attrs
  | .array items attrs => RegularAttributes attrs ∧ items.Regular
  | .map values attrs => RegularAttributes attrs ∧ values.Regular
  | .enum _ symbols attrs => RegularAttributes attrs ∧ symbols.Regular
  | .fixed _ size attrs => RegularAttributes attrs ∧ size.Regular
  | .record _ _ fields attrs => RegularAttributes attrs ∧ RegularFields fields
  | .union branches => RegularBranches branches
  | .unchecked node => node.Regular

def RegularFields : List (FieldHead × Schema) → Prop
  | [] => True
  | (f, s) :: rest => f.Regular ∧ s.Regular ∧ RegularFields rest

def RegularBranches : List Schema → Prop
  | [] => True
  | s :: rest => s.Regular ∧ RegularBranches rest

end

/-! ## Schemas that are read from regular nodes -/

theorem attributesOf_regular {es : List (Value × Value)} (h : RegularEntries es) :
    RegularAttributes (attributesOf es) := by
  have hfilter : RegularEntries (es.filter fun e => !reservedKeys.any (e.1.isText ·)) :=
    h.sublist List.filter_sublist
  have hkeys : ∀ e ∈ es.filter (fun e => !reservedKeys.any (e.1.isText ·)), ∀ key ∈ ownKeys,
      e.1.isText key = false := by
    intro e he key hkey
    have hnone := List.any_eq_false.mp (Bool.not_eq_true' _ ▸ (List.mem_filter.mp he).2)
    have hreserved : ∀ key ∈ ownKeys, key ∈ reservedKeys := by decide
    exact Bool.eq_false_iff.mpr (hnone key (hreserved key hkey))
  unfold attributesOf
  cases hdoc : Value.field? es "doc" with
  | none =>
    rw [List.append_nil]
    exact ⟨hfilter, hkeys⟩
  | some doc =>
    refine ⟨⟨?_, fun e he => ?_⟩, fun e he => ?_⟩
    · rw [List.countP_append]
      simpa [isDefault, entry, isText] using hfilter.defaultOnce
    · obtain he | he := List.mem_append.mp he
      · exact hfilter.values e he
      · rw [List.mem_singleton.mp he]
        exact h.field? hdoc
    · obtain he | he := List.mem_append.mp he
      · exact hkeys e he
      · rw [List.mem_singleton.mp he]
        have hdoc : ∀ key ∈ ownKeys, (Value.str "doc").isText key = false := by decide
        exact hdoc

theorem fieldHead_regular {es : List (Value × Value)} (h : RegularEntries es) {f : FieldHead}
    (hname : Value.field? es "name" = some f.name)
    (hattributes : f.attributes = fieldAttributesOf es) : f.Regular := by
  refine ⟨h.field? hname, ?_, fun e he => ?_⟩
  · rw [hattributes]
    exact h.sublist List.filter_sublist
  · rw [hattributes] at he
    simpa using (List.mem_filter.mp he).2

theorem fieldNodes_regular {es : List (Value × Value)} (h : RegularEntries es) :
    ∀ x ∈ fieldNodes (Value.field? es "fields"), x.Regular := by
  cases hfields : Value.field? es "fields" with
  | none => exact nofun
  | some v =>
    have hv := h.field? hfields
    cases v with
    | list xs => exact hv.items
    | tuple xs => exact absurd hv Value.Regular.not_tuple
    | _ => exact nofun

/-- No primitive type has a dot in its name. -/
theorem ofName?_dotted {name : String} (h : name.toList.contains '.' = true) :
    Primitive.ofName? name = none := by
  cases hp : Primitive.ofName? name with
  | none => rfl
  | some p =>
    rw [ofName?_eq_some hp] at h
    cases p <;> exact absurd h (by decide)

theorem ofName?_reference {t name : String} {scope : Scope} (ht : Primitive.ofName? t = none)
    (h : referenceName t scope = some name) : Primitive.ofName? name = none := by
  cases scope with
  | within around =>
    unfold referenceName at h
    dsimp only at h
    split at h
    · split at h
      · cases h
        refine ofName?_dotted ?_
        simp [String.toList_append]
      · cases h
    · cases h
      exact ht
  | verbatim =>
    cases h
    exact ht

mutual

theorem ReadFrom.regular : ∀ {s : Schema} {node : Value} {scope : Scope}, s.ReadFrom node scope →
    node.Regular → s.Regular
  | .primitive _, _, _, _, _ => trivial
  | .named name, _, _, h, _ => by
    obtain ⟨t, -, ht, hname⟩ := h
    exact ofName?_reference ht hname
  | .annotated p attrs, node, _, h, hnode => by
    obtain ⟨es, rfl, hes⟩ := h
    rw [hes.attributes]
    exact attributesOf_regular hnode.entries
  | .array items attrs, node, _, h, hnode => by
    obtain ⟨es, v, rfl, hes, hv, hitems⟩ := h
    rw [hes.attributes]
    exact ⟨attributesOf_regular hnode.entries, hitems.regular (hnode.entries.field? hv)⟩
  | .map values attrs, node, _, h, hnode => by
    obtain ⟨es, v, rfl, hes, hv, hvalues⟩ := h
    rw [hes.attributes]
    exact ⟨attributesOf_regular hnode.entries, hvalues.regular (hnode.entries.field? hv)⟩
  | .enum name symbols attrs, node, _, h, hnode => by
    obtain ⟨es, inner, rfl, hes, -, hsymbols⟩ := h
    rw [hes.attributes]
    exact ⟨attributesOf_regular hnode.entries, hnode.entries.field? hsymbols⟩
  | .fixed name size attrs, node, _, h, hnode => by
    obtain ⟨es, inner, rfl, hes, -, hsize⟩ := h
    rw [hes.attributes]
    exact ⟨attributesOf_regular hnode.entries, hnode.entries.field? hsize⟩
  | .record isError name fields attrs, node, _, h, hnode => by
    obtain ⟨es, inner, rfl, hes, -, hfields⟩ := h
    rw [hes.attributes]
    exact ⟨attributesOf_regular hnode.entries,
      hfields.regular (fieldNodes_regular hnode.entries)⟩
  | .union branches, node, _, h, hnode => by
    obtain ⟨xs, rfl, hbranches⟩ := h
    exact hbranches.regular hnode.items

theorem FieldsReadFrom.regular : ∀ {fields : List Field} {xs : List Value} {scope : Scope},
    FieldsReadFrom fields xs scope → (∀ x ∈ xs, x.Regular) → RegularFields fields
  | [], _, _, _, _ => trivial
  | (f, s) :: rest, xs, scope, h, hxs => by
    obtain ⟨es, v, ys, rfl, hname, hattributes, hv, hs, hrest⟩ := h
    have hes := (hxs _ List.mem_cons_self).entries
    exact ⟨fieldHead_regular hes hname hattributes, hs.regular (hes.field? hv),
      hrest.regular fun y hy => hxs y (List.mem_cons_of_mem _ hy)⟩

theorem BranchesReadFrom.regular : ∀ {branches : List Schema} {xs : List Value} {scope : Scope},
    BranchesReadFrom branches xs scope → (∀ x ∈ xs, x.Regular) → RegularBranches branches
  | [], _, _, _, _ => trivial
  | s :: rest, xs, scope, h, hxs => by
    obtain ⟨x, ys, rfl, hs, hrest⟩ := h
    exact ⟨hs.regular (hxs x List.mem_cons_self),
      hrest.regular fun y hy => hxs y (List.mem_cons_of_mem x hy)⟩

end

/-! ## Nodes of regular schemas -/

theorem regularEntries_append {attrs added : List (Value × Value)} (h : RegularEntries attrs)
    (hadded : ∀ e ∈ added, e.2.Regular) (hnone : added.countP isDefault = 0) :
    RegularEntries (attrs ++ added) := by
  constructor
  · rw [List.countP_append, hnone]
    exact h.defaultOnce
  · intro e he
    obtain he | he := List.mem_append.mp he
    · exact h.values e he
    · exact hadded e he

mutual

theorem toValue_regular : ∀ {s : Schema}, s.Regular → s.toValue.Regular
  | .primitive p, _ => Value.Regular.str _
  | .named name, _ => Value.Regular.str _
  | .annotated p attrs, h =>
    (regularEntries_append h.entries (by simpa [entry] using Value.Regular.str _) rfl).map
  | .array items attrs, h =>
    (regularEntries_append h.1.entries
      (by simpa [entry] using ⟨Value.Regular.str _, toValue_regular h.2⟩) rfl).map
  | .map values attrs, h =>
    (regularEntries_append h.1.entries
      (by simpa [entry] using ⟨Value.Regular.str _, toValue_regular h.2⟩) rfl).map
  | .enum name symbols attrs, h =>
    (regularEntries_append h.1.entries
      (by simpa [entry] using ⟨Value.Regular.str _, Value.Regular.str _, h.2⟩) rfl).map
  | .fixed name size attrs, h =>
    (regularEntries_append h.1.entries
      (by simpa [entry] using ⟨Value.Regular.str _, Value.Regular.str _, h.2⟩) rfl).map
  | .record isError name fields attrs, h =>
    (regularEntries_append h.1.entries
      (by simpa [entry] using ⟨Value.Regular.str _, Value.Regular.str _,
        Value.Regular.list _ (fieldValues_regular h.2)⟩) rfl).map
  | .union branches, h => .list _ (branchValues_regular h)
  | .unchecked node, h => h

theorem fieldValues_regular : ∀ {fields : List Field}, RegularFields fields →
    ∀ x ∈ fieldValues fields, x.Regular
  | [], _ => nofun
  | (f, s) :: rest, h => by
    intro x hx
    rw [fieldValues] at hx
    obtain rfl | hx := List.mem_cons.mp hx
    · refine (regularEntries_append h.1.entries ?_ rfl).map
      simpa [entry] using ⟨h.1.name, toValue_regular h.2.1⟩
    · exact fieldValues_regular h.2.2 x hx

theorem branchValues_regular : ∀ {branches : List Schema}, RegularBranches branches →
    ∀ x ∈ branchValues branches, x.Regular
  | [], _ => nofun
  | s :: rest, h => by
    intro x hx
    rw [branchValues] at hx
    obtain rfl | hx := List.mem_cons.mp hx
    · exact toValue_regular h.1
    · exact branchValues_regular h.2 x hx

end

/-! ## Schemas that are read at the top -/

theorem parseOne_yields {node : Value} {s : Schema} (h : Yields (parseOne node) s) :
    s.ReadFrom node .top := by
  obtain ⟨-, -, h⟩ := yields_bind h
  exact parseNode_yields h

/-- Whether a node is taken as it is: it is marked, and brings a table of names. -/
def isTakenAsIs (es : List (Value × Value)) : Bool :=
  (Value.field? es checkedKey).isSome && (Value.field? es namedKey).elim false isMap

theorem parseTop_map {es : List (Value × Value)} {s : Schema} (h : Yields (parseTop (.map es)) s) :
    if isTakenAsIs es then s = .unchecked (.map es) else s.ReadFrom (.map es) .top := by
  rw [parseTop] at h
  unfold isTakenAsIs
  cases hchecked : Value.field? es checkedKey with
  | none =>
    rw [hchecked] at h
    exact parseOne_yields h
  | some mark =>
    rw [hchecked] at h
    cases hnamed : Value.field? es namedKey with
    | none =>
      rw [hnamed] at h
      exact parseOne_yields h
    | some table =>
      rw [hnamed] at h
      cases table with
      | map table =>
        obtain ⟨-, -, h⟩ := yields_bind h
        exact yields_pure h
      | _ => exact absurd h not_yields_throw

theorem parseTop_atom {node : Value} {s : Schema} (h : Yields (parseTop node) s)
    (hlist : isList node = false) (hmap : isMap node = false) : s.ReadFrom node .top := by
  cases node with
  | list xs => cases hlist
  | map es => cases hmap
  | _ =>
    rw [parseTop] at h
    · exact parseOne_yields h
    all_goals nofun

mutual

theorem parseTop_regular : ∀ {node : Value} {s : Schema}, Yields (parseTop node) s →
    node.Regular → s.Regular
  | .list xs, s, h, hnode => by
    rw [parseTop] at h
    obtain ⟨branches, hbranches, h⟩ := yields_bind h
    cases yields_pure h
    exact parseTops_regular hbranches hnode.items
  | .map es, s, h, hnode => by
    have h := parseTop_map h
    split at h
    · rw [h]
      exact hnode
    · exact h.regular hnode
  | .str _, s, h, hnode | .null, s, h, hnode | .bool _, s, h, hnode | .int _, s, h, hnode
  | .float _, s, h, hnode | .bytes _, s, h, hnode | .bytearray _, s, h, hnode
  | .date _, s, h, hnode | .datetime _, s, h, hnode | .time _, s, h, hnode
  | .decimal _, s, h, hnode | .uuid _, s, h, hnode | .tuple _, s, h, hnode
  | .set _, s, h, hnode =>
    (parseTop_atom h rfl rfl).regular hnode
termination_by structural node => node

theorem parseTops_regular : ∀ {xs : List Value} {branches : List Schema},
    Yields (parseTops xs) branches → (∀ x ∈ xs, x.Regular) → RegularBranches branches
  | [], branches, h, _ => by
    rw [parseTops] at h
    cases yields_pure h
    exact trivial
  | x :: xs, branches, h, hxs => by
    rw [parseTops] at h
    obtain ⟨s, hs, h⟩ := yields_bind h
    obtain ⟨rest, hrest, h⟩ := yields_bind h
    cases yields_pure h
    exact ⟨parseTop_regular hs (hxs x List.mem_cons_self),
      parseTops_regular hrest fun y hy => hxs y (List.mem_cons_of_mem x hy)⟩
termination_by structural xs => xs

end

theorem parse_regular {node : Value} {s : Schema} (h : parse node = .ok s) (hnode : node.Regular) :
    s.Regular :=
  parseTop_regular (yields_of_run' h) hnode

theorem unmarked_regular {node : Value} (h : node.Regular) : (unmarked node).Regular := by
  cases node with
  | map es => exact (h.entries.sublist List.filter_sublist).map
  | _ => exact h

mutual

theorem reread_regular : ∀ {s t : Schema}, Yields (reread s) t → s.Regular → t.Regular
  | .record isError name fields attrs, t, h, hs => by
    rw [reread] at h
    obtain ⟨-, -, h⟩ := yields_bind h
    cases yields_pure h
    exact hs
  | .union branches, t, h, hs => by
    rw [reread] at h
    obtain ⟨bs, hbs, h⟩ := yields_bind h
    cases yields_pure h
    exact rereadAll_regular hbs hs
  | .unchecked node, t, h, hs => by
    rw [reread] at h
    exact (parseNode_yields h).regular (unmarked_regular hs)
  | .primitive _, t, h, hs | .named _, t, h, hs | .annotated _ _, t, h, hs | .array _ _, t, h, hs
  | .map _ _, t, h, hs | .enum _ _ _, t, h, hs | .fixed _ _ _, t, h, hs => by
    simp only [reread] at h
    exact (parseOne_yields h).regular (toValue_regular hs)

theorem rereadAll_regular : ∀ {branches ts : List Schema}, Yields (rereadAll branches) ts →
    RegularBranches branches → RegularBranches ts
  | [], ts, h, _ => by
    rw [rereadAll] at h
    cases yields_pure h
    exact trivial
  | s :: rest, ts, h, hs => by
    rw [rereadAll] at h
    obtain ⟨t, ht, h⟩ := yields_bind h
    obtain ⟨ts', hts, h⟩ := yields_bind h
    cases yields_pure h
    exact ⟨reread_regular ht hs.1, rereadAll_regular hts hs.2⟩

end

theorem settle_regular {s t : Schema} (h : s.settle = .ok t) (hs : s.Regular) : t.Regular :=
  reread_regular (yields_of_run' h) hs

end Schema
end Avro
end StreamTable
