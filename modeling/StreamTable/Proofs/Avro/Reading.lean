/-
What schemas are read from.  `s.ReadFrom node scope` says of a schema that it is what a node says
in a scope.  Which names are known plays no part in that: they decide only whether the node is
read at all.  A node says one schema, whatever else was read before it.
-/
import StreamTable.Avro.Schema.Parser
import StreamTable.Proofs.Action.Yields
import StreamTable.Proofs.Value.Regular

namespace StreamTable
namespace Avro

namespace Schema

/-! ## What a node says -/

/-- The full name that a reference stands for. -/
def referenceName (s : String) : Scope → Option String
  | .within around =>
    if !s.toList.contains '.' && around.isTruthy then
      match around with
      | .str ns => some (ns ++ "." ++ s)
      | _ => none
    else some s
  | .verbatim => some s

/-- The nodes of the fields of an object. -/
def fieldNodes : Option Value → List Value
  | some (.list xs) => xs
  | some (.tuple xs) => xs
  | _ => []

/-- An object of a kind, and its attributes. -/
structure Describes (es : List (Value × Value)) (kind : String) (attrs : Attributes) : Prop where
  type : Value.field? es "type" = some (.str kind)
  attributes : attrs = attributesOf es

mutual

def ReadFrom : Schema → Value → Scope → Prop
  | .primitive p, node, _ => node = .str p.name
  | .named name, node, scope =>
    ∃ s, node = .str s ∧ Primitive.ofName? s = none ∧ referenceName s scope = some name
  | .annotated p attrs, node, _ => ∃ es, node = .map es ∧ Describes es p.name attrs
  | .array items attrs, node, scope =>
    ∃ es v, node = .map es ∧ Describes es "array" attrs ∧ Value.field? es "items" = some v ∧
      items.ReadFrom v scope
  | .map values attrs, node, scope =>
    ∃ es v, node = .map es ∧ Describes es "map" attrs ∧ Value.field? es "values" = some v ∧
      values.ReadFrom v scope
  | .enum name symbols attrs, node, scope =>
    ∃ es inner, node = .map es ∧ Describes es "enum" attrs ∧ fullNameOf es scope = .ok (inner, name) ∧
      Value.field? es "symbols" = some symbols
  | .fixed name size attrs, node, scope =>
    ∃ es inner, node = .map es ∧ Describes es "fixed" attrs ∧ fullNameOf es scope = .ok (inner, name) ∧
      Value.field? es "size" = some size
  | .record isError name fields attrs, node, scope =>
    ∃ es inner, node = .map es ∧ Describes es (if isError then "error" else "record") attrs ∧
      fullNameOf es scope = .ok (inner, name) ∧
      FieldsReadFrom fields (fieldNodes (Value.field? es "fields")) inner
  | .union branches, node, scope =>
    ∃ xs, node = .list xs ∧ BranchesReadFrom branches xs scope
  | .unchecked _, _, _ => False

def FieldsReadFrom : List (FieldHead × Schema) → List Value → Scope → Prop
  | [], xs, _ => xs = []
  | (f, s) :: rest, xs, scope =>
    ∃ es v ys, xs = .map es :: ys ∧ Value.field? es "name" = some f.name ∧
      f.attributes = fieldAttributesOf es ∧ Value.field? es "type" = some v ∧ s.ReadFrom v scope ∧
      FieldsReadFrom rest ys scope

def BranchesReadFrom : List Schema → List Value → Scope → Prop
  | [], xs, _ => xs = []
  | s :: rest, xs, scope =>
    ∃ x ys, xs = x :: ys ∧ s.ReadFrom x scope ∧ BranchesReadFrom rest ys scope

end

/-! ## The reader of nodes -/

theorem ofName?_eq_some {t : String} {p : Primitive} (h : Primitive.ofName? t = some p) :
    t = p.name := by
  unfold Primitive.ofName? at h
  split at h <;> cases h <;> rfl

theorem required_eq_ok {es : List (Value × Value)} {key : String} {v : Value}
    (h : required es key = .ok v) : Value.field? es key = some v := by
  unfold required at h
  split at h
  · rename_i hv
    cases h
    exact hv
  · cases h

theorem referenceWithin_yields {t : String} {around : Value} {s : Schema}
    (ht : Primitive.ofName? t = none) (h : Yields (referenceWithin t around) s) :
    s.ReadFrom (.str t) (.within around) := by
  let known (name : String) : Reading Schema := do
    if (← get).known.contains name then pure (.named name) else throw (.unknownName name)
  have hknown {name : String} (h : Yields (known name) s) : s = .named name := by
    obtain ⟨names, -, h⟩ := yields_bind h
    split at h
    · exact yields_pure h
    · exact absurd h not_yields_throw
  unfold referenceWithin at h
  dsimp only at h
  split at h
  · rename_i hns
    split at h
    · obtain ⟨name, hname, h⟩ := yields_bind h
      cases yields_pure hname
      rw [hknown h]
      exact ⟨t, rfl, ht, if_pos hns⟩
    · obtain ⟨name, hname, -⟩ := yields_bind h
      exact absurd hname not_yields_throw
  · rename_i hns
    obtain ⟨name, hname, h⟩ := yields_bind h
    cases yields_pure hname
    rw [hknown h]
    exact ⟨t, rfl, ht, if_neg hns⟩

theorem readReference_yields {t : String} {scope : Scope} {s : Schema}
    (ht : Primitive.ofName? t = none) (h : Yields (readReference t scope) s) :
    s.ReadFrom (.str t) scope := by
  cases scope with
  | within around => exact referenceWithin_yields ht h
  | verbatim =>
    rw [yields_pure h]
    exact ⟨t, rfl, ht, rfl⟩

theorem noFields_yields {scope : Scope} {fields : List Field} (h : Yields (noFields scope) fields) :
    fields = [] := by
  cases scope with
  | within around => exact yields_pure h
  | verbatim => exact absurd h not_yields_throw

/-- What is known of an entry that is read by a child. -/
structure ReadBy (es : List (Value × Value)) (key : String) (c : Child) (v : Value) : Prop where
  entry : Value.field? es key = some v
  schema : ∀ {scope default? s}, Yields (c.schema scope default?) s → s.ReadFrom v scope
  fields : ∀ {scope fields}, Yields (c.fields scope) fields →
    FieldsReadFrom fields (fieldNodes (some v)) scope

theorem child_readBy {es : List (Value × Value)} {children : List (Value × Child)} {key : String}
    {c : Child} (hfind : ∀ e, (children.find? fun e => e.1.isText key) = some e →
      ∃ v, ReadBy es key e.2 v) (h : child children key = .ok c) : ∃ v, ReadBy es key c v := by
  unfold child at h
  split at h
  · rename_i e he
    cases h
    exact hfind e he
  · cases h

theorem record_readFrom {es : List (Value × Value)} {t name : String} {inner scope : Scope}
    {fields : List Field} (ht : (decide (t = "record") || decide (t = "error")) = true)
    (htype : Value.field? es "type" = some (.str t))
    (hname : fullNameOf es scope = .ok (inner, name))
    (hfields : FieldsReadFrom fields (fieldNodes (Value.field? es "fields")) inner) :
    (Schema.record (decide (t = "error")) name fields (attributesOf es)).ReadFrom (.map es)
      scope := by
  have hkind : (if decide (t = "error") = true then "error" else "record") = t := by
    by_cases he : t = "error"
    · simp [he]
    · simpa [he, eq_comm] using ht
  exact ⟨es, inner, rfl, ⟨by rw [hkind]; exact htype, rfl⟩, hname, hfields⟩

theorem refuseFields_yields {xs : List Value} {fields : List Field}
    (h : Yields (refuseFields xs) fields) : fields = [] := by
  cases xs with
  | nil => exact yields_pure h
  | cons x xs => exact absurd h not_yields_throw

mutual

theorem parseNode_yields : ∀ {node : Value} {scope : Scope} {default? : Option Value} {s : Schema},
    Yields (parseNode node scope default?) s → s.ReadFrom node scope
  | .list xs, scope, default?, s, h => by
    rw [parseNode] at h
    obtain ⟨branches, hbranches, h⟩ := yields_bind h
    have hread := parseBranches_yields hbranches
    have hunion : s = .union branches := by
      split at h
      · split at h
        · exact yields_pure h
        · exact absurd h not_yields_throw
      · exact yields_pure h
    rw [hunion]
    exact ⟨xs, rfl, hread⟩
  | .str t, scope, default?, s, h => by
    rw [parseNode] at h
    cases hp : Primitive.ofName? t with
    | some p =>
      rw [hp] at h
      obtain ⟨-, -, h⟩ := yields_bind h
      cases yields_pure h
      exact congrArg Value.str (ofName?_eq_some hp)
    | none =>
      rw [hp] at h
      exact readReference_yields hp h
  | .map es, scope, default?, s, h => by
    rw [parseNode] at h
    obtain ⟨type, htype, h⟩ := yields_bind h
    obtain ⟨-, h⟩ := yields_check h
    dsimp only at h
    have htype := required_eq_ok (yields_lift htype)
    split at h
    · obtain ⟨c, hc, h⟩ := yields_bind h
      obtain ⟨items, hitems, h⟩ := yields_bind h
      obtain ⟨-, -, h⟩ := yields_bind h
      cases yields_pure h
      obtain ⟨v, hv⟩ := child_readBy (parseChildren_find es "items").1 (yields_lift hc)
      exact ⟨es, v, rfl, ⟨htype, rfl⟩, hv.entry, hv.schema hitems⟩
    · obtain ⟨c, hc, h⟩ := yields_bind h
      obtain ⟨values, hvalues, h⟩ := yields_bind h
      obtain ⟨-, -, h⟩ := yields_bind h
      cases yields_pure h
      obtain ⟨v, hv⟩ := child_readBy (parseChildren_find es "values").1 (yields_lift hc)
      exact ⟨es, v, rfl, ⟨htype, rfl⟩, hv.entry, hv.schema hvalues⟩
    · obtain ⟨⟨inner, name⟩, hname, h⟩ := yields_bind h
      obtain ⟨-, -, h⟩ := yields_bind h
      obtain ⟨-, -, h⟩ := yields_bind h
      obtain ⟨-, -, h⟩ := yields_bind h
      obtain ⟨symbols, hsymbols, h⟩ := yields_bind h
      cases yields_pure h
      exact ⟨es, inner, rfl, ⟨htype, rfl⟩, yields_lift hname, required_eq_ok (yields_lift hsymbols)⟩
    · obtain ⟨⟨inner, name⟩, hname, h⟩ := yields_bind h
      obtain ⟨-, -, h⟩ := yields_bind h
      obtain ⟨size, hsize, h⟩ := yields_bind h
      obtain ⟨-, -, h⟩ := yields_bind h
      cases yields_pure h
      exact ⟨es, inner, rfl, ⟨htype, rfl⟩, yields_lift hname, required_eq_ok (yields_lift hsize)⟩
    · rename_i t _ _ _ _ _ _
      split at h
      · rename_i ht
        obtain ⟨⟨inner, name⟩, hname, h⟩ := yields_bind h
        obtain ⟨-, -, h⟩ := yields_bind h
        dsimp only at h
        split at h
        · rename_i e he
          obtain ⟨v, hv⟩ := (parseChildren_find es "fields").1 e he
          obtain ⟨fields, hfields, h⟩ := yields_bind h
          obtain ⟨-, -, h⟩ := yields_bind h
          cases yields_pure h
          refine record_readFrom ht htype (yields_lift hname) ?_
          rw [hv.entry]
          exact hv.fields hfields
        · rename_i hnone
          obtain ⟨fields, hfields, h⟩ := yields_bind h
          obtain ⟨-, -, h⟩ := yields_bind h
          cases yields_pure h
          rw [noFields_yields hfields]
          refine record_readFrom ht htype (yields_lift hname) ?_
          rw [(parseChildren_find es "fields").2 hnone]
          exact rfl
      · split at h
        · rename_i p hp
          obtain ⟨-, -, h⟩ := yields_bind h
          cases yields_pure h
          rw [ofName?_eq_some hp] at htype
          exact ⟨es, rfl, htype, rfl⟩
        · exact absurd h not_yields_throw
    · exact absurd h not_yields_throw
  | .null, _, _, _, h | .bool _, _, _, _, h | .int _, _, _, _, h | .float _, _, _, _, h
  | .bytes _, _, _, _, h | .bytearray _, _, _, _, h | .date _, _, _, _, h
  | .datetime _, _, _, _, h | .time _, _, _, _, h | .decimal _, _, _, _, h | .uuid _, _, _, _, h
  | .tuple _, _, _, _, h | .set _, _, _, _, h => by
    simp only [parseNode] at h
    exact absurd h not_yields_throw
termination_by structural node => node

theorem parseBranches_yields : ∀ {xs : List Value} {scope : Scope} {branches : List Schema},
    Yields (parseBranches xs scope) branches → BranchesReadFrom branches xs scope
  | [], _, branches, h => by
    rw [parseBranches] at h
    cases yields_pure h
    exact rfl
  | x :: xs, scope, branches, h => by
    rw [parseBranches] at h
    obtain ⟨s, hs, h⟩ := yields_bind h
    obtain ⟨rest, hrest, h⟩ := yields_bind h
    cases yields_pure h
    exact ⟨x, xs, rfl, parseNode_yields hs, parseBranches_yields hrest⟩
termination_by structural xs => xs

theorem parseFields_yields : ∀ {v : Value} {scope : Scope} {fields : List Field},
    Yields (parseFields v scope) fields → FieldsReadFrom fields (fieldNodes (some v)) scope
  | .list xs, scope, fields, h => by
    rw [parseFields] at h
    exact parseFieldList_yields h
  | .tuple xs, scope, fields, h => by
    rw [parseFields] at h
    exact parseFieldList_yields h
  | .map _, scope, fields, h | .str _, scope, fields, h | .set _, scope, fields, h | .bytes _, scope, fields, h
  | .bytearray _, scope, fields, h => by
    rw [parseFields] at h
    rw [refuseFields_yields h]
    exact rfl
  | .null, _, _, h | .bool _, _, _, h | .int _, _, _, h | .float _, _, _, h | .date _, _, _, h
  | .datetime _, _, _, h | .time _, _, _, h | .decimal _, _, _, h | .uuid _, _, _, h => by
    simp only [parseFields] at h
    exact absurd h not_yields_throw
termination_by structural v => v

theorem parseFieldList_yields : ∀ {xs : List Value} {scope : Scope} {fields : List Field},
    Yields (parseFieldList xs scope) fields → FieldsReadFrom fields xs scope
  | [], _, fields, h => by
    rw [parseFieldList] at h
    cases yields_pure h
    exact rfl
  | x :: xs, scope, fields, h => by
    rw [parseFieldList] at h
    obtain ⟨f, hf, h⟩ := yields_bind h
    obtain ⟨rest, hrest, h⟩ := yields_bind h
    cases yields_pure h
    obtain ⟨es, v, rfl, hname, hattributes, htype, hs⟩ := parseField_yields hf
    exact ⟨es, v, xs, rfl, hname, hattributes, htype, hs, parseFieldList_yields hrest⟩
termination_by structural xs => xs

theorem parseField_yields : ∀ {x : Value} {scope : Scope} {f : Field}, Yields (parseField x scope) f →
    ∃ es v, x = .map es ∧ Value.field? es "name" = some f.1.name ∧
      f.1.attributes = fieldAttributesOf es ∧ Value.field? es "type" = some v ∧ f.2.ReadFrom v scope
  | .map es, scope, f, h => by
    rw [parseField] at h
    split at h
    · exact absurd h not_yields_throw
    · rename_i name hname
      split at h
      · exact absurd h not_yields_throw
      · rename_i type htype
        dsimp only at h
        have hrest : ∃ s, Yields (type.2.schema scope (scope.default? es)) s ∧
            f = (⟨name, fieldAttributesOf es⟩, s) := by
          split at h
          · obtain ⟨-, -, h⟩ := yields_bind h
            obtain ⟨s, hs, h⟩ := yields_bind h
            exact ⟨s, hs, yields_pure h⟩
          · obtain ⟨s, hs, h⟩ := yields_bind h
            exact ⟨s, hs, yields_pure h⟩
        obtain ⟨s, hs, rfl⟩ := hrest
        obtain ⟨v, hv⟩ := (parseChildren_find es "type").1 type htype
        exact ⟨es, v, rfl, hname, rfl, hv.entry, hv.schema hs⟩
  | .null, _, _, h | .bool _, _, _, h | .int _, _, _, h | .float _, _, _, h
  | .bytes _, _, _, h | .bytearray _, _, _, h | .date _, _, _, h
  | .datetime _, _, _, h | .time _, _, _, h | .decimal _, _, _, h | .uuid _, _, _, h
  | .list _, _, _, h | .str _, _, _, h | .tuple _, _, _, h | .set _, _, _, h => by
    simp only [parseField] at h
    exact absurd h not_yields_throw
termination_by structural x => x

theorem parseChildren_find : ∀ (es : List (Value × Value)) (key : String),
    (∀ e, ((parseChildren es).find? fun e => e.1.isText key) = some e →
      ∃ v, ReadBy es key e.2 v) ∧
    (((parseChildren es).find? fun e => e.1.isText key) = none → Value.field? es key = none)
  | [], key => by
    rw [parseChildren]
    exact ⟨nofun, fun _ => rfl⟩
  | (k, v) :: es, key => by
    rw [parseChildren, List.find?_cons]
    have hfield := Value.field?_cons k v es key
    rw [hfield]
    cases hk : k.isText key with
    | true =>
      refine ⟨fun e he => ?_, nofun⟩
      cases he
      exact ⟨v, hfield.trans (if_pos hk), fun h => parseNode_yields h,
        fun h => parseFields_yields h⟩
    | false =>
      obtain ⟨hsome, hnone⟩ := parseChildren_find es key
      refine ⟨fun e he => ?_, hnone⟩
      obtain ⟨w, hw⟩ := hsome e he
      exact ⟨w, hfield.trans ((if_neg (by rw [hk]; nofun)).trans hw.entry), hw.schema, hw.fields⟩
termination_by structural es => es

end

/-! ## A node says one schema -/

/-- What can be told of a schema from its node alone. -/
inductive Tag where
  | primitive
  | named
  | annotated
  | array
  | map
  | enum
  | fixed
  | record (isError : Bool)
  | union
  | none

def tag : Schema → Tag
  | .primitive _ => .primitive
  | .named _ => .named
  | .annotated .. => .annotated
  | .array .. => .array
  | .map .. => .map
  | .enum .. => .enum
  | .fixed .. => .fixed
  | .record isError .. => .record isError
  | .union _ => .union
  | .unchecked _ => .none

def Tag.ofKind : String → Tag
  | "array" => .array
  | "map" => .map
  | "enum" => .enum
  | "fixed" => .fixed
  | "record" => .record false
  | "error" => .record true
  | _ => .annotated

def tagOf : Value → Tag
  | .str t => if (Primitive.ofName? t).isSome then .primitive else .named
  | .map es => ((Value.field? es "type").bind Value.asStr?).elim .none .ofKind
  | .list _ => .union
  | _ => .none

theorem ofName?_name (p : Primitive) : Primitive.ofName? p.name = some p := by
  cases p <;> rfl

theorem name_inj {p q : Primitive} (h : p.name = q.name) : p = q := by
  have hsome := ofName?_name p
  rw [h, ofName?_name] at hsome
  exact (Option.some.inj hsome).symm

theorem Describes.tagOf_eq {es : List (Value × Value)} {kind : String} {attrs : Attributes}
    (h : Describes es kind attrs) : tagOf (.map es) = .ofKind kind := by
  rw [tagOf, h.type]
  rfl

theorem ReadFrom.tag_eq {s : Schema} {node : Value} {scope : Scope} (h : s.ReadFrom node scope) :
    s.tag = tagOf node := by
  cases s with
  | primitive p =>
    cases h
    simp only [tagOf, ofName?_name]
    rfl
  | named name =>
    obtain ⟨t, rfl, ht, -⟩ := h
    simp only [tagOf, ht]
    rfl
  | annotated p attrs =>
    obtain ⟨es, rfl, hes⟩ := h
    rw [hes.tagOf_eq]
    cases p <;> rfl
  | array items attrs =>
    obtain ⟨es, v, rfl, hes, -⟩ := h
    exact hes.tagOf_eq.symm
  | map values attrs =>
    obtain ⟨es, v, rfl, hes, -⟩ := h
    exact hes.tagOf_eq.symm
  | enum name symbols attrs =>
    obtain ⟨es, ns, rfl, hes, -⟩ := h
    exact hes.tagOf_eq.symm
  | fixed name size attrs =>
    obtain ⟨es, ns, rfl, hes, -⟩ := h
    exact hes.tagOf_eq.symm
  | record isError name fields attrs =>
    obtain ⟨es, ns, rfl, hes, -⟩ := h
    rw [hes.tagOf_eq]
    cases isError <;> rfl
  | union branches =>
    obtain ⟨xs, rfl, -⟩ := h
    rfl
  | unchecked node => exact h.elim

mutual

theorem ReadFrom.unique : ∀ {s t : Schema} {node : Value} {scope : Scope}, s.ReadFrom node scope →
    t.ReadFrom node scope → s = t
  | .primitive p, t, node, scope, h, h' => by
    have htag := h.tag_eq.trans h'.tag_eq.symm
    cases t with
    | primitive q => exact congrArg Schema.primitive (name_inj (Value.str.inj (h.symm.trans h')))
    | _ => cases htag
  | .named name, t, node, scope, h, h' => by
    have htag := h.tag_eq.trans h'.tag_eq.symm
    cases t with
    | named name' =>
      obtain ⟨u, rfl, -, hname⟩ := h
      obtain ⟨u', hu, -, hname'⟩ := h'
      cases hu
      exact congrArg Schema.named (Option.some.inj (hname.symm.trans hname'))
    | _ => cases htag
  | .annotated p attrs, t, node, scope, h, h' => by
    have htag := h.tag_eq.trans h'.tag_eq.symm
    cases t with
    | annotated q attrs' =>
      obtain ⟨es, rfl, hes⟩ := h
      obtain ⟨es', hnode, hes'⟩ := h'
      cases hnode
      obtain rfl : p = q :=
        name_inj (Value.str.inj (Option.some.inj (hes.type.symm.trans hes'.type)))
      rw [hes.attributes, hes'.attributes]
    | _ => cases htag
  | .array items attrs, t, node, scope, h, h' => by
    have htag := h.tag_eq.trans h'.tag_eq.symm
    cases t with
    | array items' attrs' =>
      obtain ⟨es, v, rfl, hes, hv, hitems⟩ := h
      obtain ⟨es', v', hnode, hes', hv', hitems'⟩ := h'
      cases hnode
      cases hv.symm.trans hv'
      rw [hes.attributes, hes'.attributes, hitems.unique hitems']
    | _ => cases htag
  | .map values attrs, t, node, scope, h, h' => by
    have htag := h.tag_eq.trans h'.tag_eq.symm
    cases t with
    | map values' attrs' =>
      obtain ⟨es, v, rfl, hes, hv, hvalues⟩ := h
      obtain ⟨es', v', hnode, hes', hv', hvalues'⟩ := h'
      cases hnode
      cases hv.symm.trans hv'
      rw [hes.attributes, hes'.attributes, hvalues.unique hvalues']
    | _ => cases htag
  | .enum name symbols attrs, t, node, scope, h, h' => by
    have htag := h.tag_eq.trans h'.tag_eq.symm
    cases t with
    | enum name' symbols' attrs' =>
      obtain ⟨es, ns, rfl, hes, hname, hsymbols⟩ := h
      obtain ⟨es', ns', hnode, hes', hname', hsymbols'⟩ := h'
      cases hnode
      cases hname.symm.trans hname'
      cases hsymbols.symm.trans hsymbols'
      rw [hes.attributes, hes'.attributes]
    | _ => cases htag
  | .fixed name size attrs, t, node, scope, h, h' => by
    have htag := h.tag_eq.trans h'.tag_eq.symm
    cases t with
    | fixed name' size' attrs' =>
      obtain ⟨es, ns, rfl, hes, hname, hsize⟩ := h
      obtain ⟨es', ns', hnode, hes', hname', hsize'⟩ := h'
      cases hnode
      cases hname.symm.trans hname'
      cases hsize.symm.trans hsize'
      rw [hes.attributes, hes'.attributes]
    | _ => cases htag
  | .record isError name fields attrs, t, node, scope, h, h' => by
    have htag := h.tag_eq.trans h'.tag_eq.symm
    cases t with
    | record isError' name' fields' attrs' =>
      obtain ⟨es, ns, rfl, hes, hname, hfields⟩ := h
      obtain ⟨es', ns', hnode, hes', hname', hfields'⟩ := h'
      cases hnode
      cases hname.symm.trans hname'
      cases htag
      rw [hes.attributes, hes'.attributes, hfields.unique hfields']
    | _ => cases htag
  | .union branches, t, node, scope, h, h' => by
    have htag := h.tag_eq.trans h'.tag_eq.symm
    cases t with
    | union branches' =>
      obtain ⟨xs, rfl, hbranches⟩ := h
      obtain ⟨xs', hnode, hbranches'⟩ := h'
      cases hnode
      rw [hbranches.unique hbranches']
    | _ => cases htag

theorem FieldsReadFrom.unique : ∀ {fields fields' : List Field} {xs : List Value} {scope : Scope},
    FieldsReadFrom fields xs scope → FieldsReadFrom fields' xs scope → fields = fields'
  | [], fields', xs, scope, h, h' => by
    cases h
    cases fields' with
    | nil => rfl
    | cons f rest =>
      obtain ⟨es, v, ys, hcons, -⟩ := h'
      cases hcons
  | (f, s) :: rest, fields', xs, scope, h, h' => by
    obtain ⟨es, v, ys, rfl, hname, hattributes, hv, hs, hrest⟩ := h
    cases fields' with
    | nil => cases h'
    | cons g rest' =>
      obtain ⟨⟨name, attrs⟩, t⟩ := g
      obtain ⟨es', v', ys', hcons, hname', hattributes', hv', ht, hrest'⟩ := h'
      cases hcons
      cases hv.symm.trans hv'
      cases hname.symm.trans hname'
      rw [hs.unique ht, hrest.unique hrest']
      obtain ⟨name, attrs'⟩ := f
      cases hattributes.trans hattributes'.symm
      rfl

theorem BranchesReadFrom.unique : ∀ {branches branches' : List Schema} {xs : List Value}
    {scope : Scope}, BranchesReadFrom branches xs scope → BranchesReadFrom branches' xs scope →
    branches = branches'
  | [], branches', xs, scope, h, h' => by
    cases h
    cases branches' with
    | nil => rfl
    | cons s rest =>
      obtain ⟨x, ys, hcons, -⟩ := h'
      cases hcons
  | s :: rest, branches', xs, scope, h, h' => by
    obtain ⟨x, ys, rfl, hs, hrest⟩ := h
    cases branches' with
    | nil => cases h'
    | cons t rest' =>
      obtain ⟨x', ys', hcons, ht, hrest'⟩ := h'
      cases hcons
      rw [hs.unique ht, hrest.unique hrest']

end

end Schema
end Avro
end StreamTable
