/-
The types of plain values.  The type of a value is read off it twice: as the node that its
descriptor is printed from, and as the schema that is parsed from that node.  `HasKind` says which
values have which type; the two readings are what the type says.
-/
import StreamTable.Proofs.Action.Results
import StreamTable.Proofs.Json.RoundTrip
import StreamTable.Record.Decoder

namespace StreamTable
namespace PlainValue

/-! ## Scalars -/

/-- The types of plain values that are no maps. -/
inductive Scalar where
  | boolean
  | long
  | double
  | string
  | bytes
  | timestamp
  | date
  | time
deriving DecidableEq

namespace Scalar

/-- The type of a value that is no map.  Bytes are bytes whether they can be changed or not. -/
def of? : Value → Option Scalar
  | .bool _ => some .boolean
  | .int _ => some .long
  | .float _ => some .double
  | .str _ => some .string
  | .bytes _ => some .bytes
  | .bytearray _ => some .bytes
  | .datetime _ => some .timestamp
  | .date _ => some .date
  | .time _ => some .time
  | _ => none

def primitive : Scalar → Avro.Primitive
  | .boolean => .boolean
  | .long => .long
  | .double => .double
  | .string => .string
  | .bytes => .bytes
  | .timestamp => .long
  | .date => .int
  | .time => .int

/-- What the numbers of a type stand for, if they stand for something else. -/
def logical? : Scalar → Option String
  | .timestamp => some "timestamp-millis"
  | .date => some "date"
  | .time => some "time-millis"
  | _ => none

def node (t : Scalar) : Value :=
  match t.logical? with
  | some logical => logicalNode t.primitive.name logical
  | none => .str t.primitive.name

def schema (t : Scalar) : Avro.Schema :=
  match t.logical? with
  | some logical => .annotated t.primitive [Value.entry "logicalType" (.str logical)]
  | none => .primitive t.primitive

theorem node_same (s t : Scalar) : s.node.same t.node = decide (s = t) := by
  cases s <;> cases t <;> decide +kernel

end Scalar

/-- A value as it is stored: bytes can no longer be changed. -/
def frozen : Value → Value
  | .bytearray b => .bytes b
  | v => v

theorem scalar_eq (v : Value) : scalar v =
    match Scalar.of? v with
    | some t => .ok (t.node, frozen v)
    | none => .error (.primitive (.unsupported v.typeName)) := by
  cases v <;> rfl

theorem scalar_ok_iff {v type stored : Value} :
    scalar v = .ok (type, stored) ↔
      ∃ t, Scalar.of? v = some t ∧ type = t.node ∧ stored = frozen v := by
  rw [scalar_eq]
  cases Scalar.of? v with
  | none => simp
  | some t => simp [eq_comm]

def frozenEntry (e : Value × Value) : Value × Value := (e.1, frozen e.2)

/-- The values of a map have their types one by one. -/
theorem scalars_ok_iff {es entries : List (Value × Value)} {types : List Value} :
    scalars es = .ok (types, entries) ↔
      List.Forall₂ (fun e type => ∃ t, Scalar.of? e.2 = some t ∧ type = t.node) es types ∧
        entries = es.map frozenEntry := by
  induction es generalizing types entries with
  | nil =>
    rw [List.forall₂_nil_left_iff]
    constructor
    · rintro ⟨⟩
      exact ⟨rfl, rfl⟩
    · rintro ⟨rfl, rfl⟩
      rfl
  | cons e es ih =>
    obtain ⟨k, v⟩ := e
    rw [List.forall₂_cons_left_iff]
    constructor
    · intro h
      obtain ⟨⟨type, stored⟩, hv, h⟩ := Except.of_bind_ok h
      obtain ⟨⟨types', entries'⟩, hes, h⟩ := Except.of_bind_ok h
      obtain ⟨t, ht, rfl, rfl⟩ := scalar_ok_iff.mp hv
      obtain ⟨htypes, rfl⟩ := ih.mp hes
      cases h
      exact ⟨⟨t.node, types', ⟨t, ht, rfl⟩, htypes, rfl⟩, rfl⟩
    · rintro ⟨⟨_, types', ⟨t, ht, rfl⟩, htypes, rfl⟩, rfl⟩
      have hv : scalar v = .ok (t.node, frozen v) := scalar_ok_iff.mpr ⟨t, ht, rfl, rfl⟩
      rw [scalars, hv]
      change (scalars es >>= fun p => Except.ok (t.node :: p.1, (k, frozen v) :: p.2)) = _
      rw [ih.mpr ⟨htypes, rfl⟩]
      rfl

/-! ## Types -/

/-- The types of plain values. -/
inductive Kind where
  | single (type : Scalar)
  | map (values : Scalar)

namespace Kind

def node : Kind → Value
  | .single t => t.node
  | .map t => mapNode t.node

def schema : Kind → Avro.Schema
  | .single t => t.schema
  | .map t => .map t.schema []

end Kind

/-- The types of plain values: that of the value itself, or for a map with texts for keys the one
type of its values.  A map without entries counts as a map of texts. -/
inductive HasKind : Value → Kind → Prop where
  | single {v : Value} {t : Scalar} (h : Scalar.of? v = some t) : HasKind v (.single t)
  | empty : HasKind (.map []) (.map .string)
  | map {es : List (Value × Value)} {t : Scalar} (hne : es ≠ [])
      (hkeys : ∀ e ∈ es, e.1.isStr = true) (h : ∀ e ∈ es, Scalar.of? e.2 = some t) :
      HasKind (.map es) (.map t)

/-- A plain value as it is stored in a row. -/
def stored : Value → Value
  | .map es => .map (es.map frozenEntry)
  | v => frozen v

theorem typed_eq_scalar {v : Value} (h : ∀ es, v ≠ .map es) : typed v = scalar v := by
  cases v with
  | map es => exact absurd rfl (h es)
  | _ => rfl

theorem typed_of_single {v : Value} {t : Scalar} (h : Scalar.of? v = some t) :
    typed v = .ok (t.node, frozen v) ∧ stored v = frozen v := by
  have hmap : ∀ es, v ≠ .map es := by
    rintro es rfl
    cases h
  refine ⟨(typed_eq_scalar hmap).trans (scalar_ok_iff.mpr ⟨t, h, rfl, rfl⟩), ?_⟩
  cases v with
  | map es => exact absurd rfl (hmap es)
  | _ => rfl

theorem HasKind.typed {v : Value} {t : Kind} (h : HasKind v t) :
    typed v = .ok (t.node, stored v) := by
  cases h with
  | single h =>
    obtain ⟨htyped, hstored⟩ := typed_of_single h
    rw [htyped, hstored]
    rfl
  | empty => rfl
  | @map es t hne hkeys h =>
    have hall : es.all (·.1.isStr) = true := List.all_eq_true.mpr hkeys
    have htypes : scalars es = .ok (es.map fun _ => t.node, es.map frozenEntry) := by
      refine scalars_ok_iff.mpr ⟨?_, rfl⟩
      rw [List.forall₂_map_right_iff, List.forall₂_same]
      exact fun e he => ⟨t, h e he, rfl⟩
    obtain ⟨e, es, rfl⟩ := List.exists_cons_of_ne_nil hne
    have hsame : (es.map fun _ => t.node).all (·.same t.node) = true := by
      rw [List.all_map, List.all_eq_true]
      intro e' _
      exact (t.node_same t).trans (decide_eq_true rfl)
    rw [PlainValue.typed, hall, htypes]
    change (if (es.map fun _ => t.node).all (·.same t.node) = true then _ else _) = _
    rw [if_pos hsame]
    rfl

/-- Types whose nodes are the same are the same. -/
theorem of?_of_same {es : List (Value × Value)} {types : List Value} {t : Scalar}
    (h : List.Forall₂ (fun e type => ∃ t, Scalar.of? e.2 = some t ∧ type = t.node) es types)
    (hsame : ∀ type ∈ types, type.same t.node = true) : ∀ e ∈ es, Scalar.of? e.2 = some t := by
  induction h with
  | nil => exact List.forall_mem_nil _
  | cons he _ ih =>
    obtain ⟨ht', hrest⟩ := List.forall_mem_cons.mp hsame
    obtain ⟨t', he, rfl⟩ := he
    rw [Scalar.node_same, decide_eq_true_eq] at ht'
    exact List.forall_mem_cons.mpr ⟨by rw [he, ht'], ih hrest⟩

/-- A map has a type if its keys are texts and its values have one. -/
theorem hasKind_of_typed_map {es : List (Value × Value)} {p : Value × Value}
    (h : typed (.map es) = .ok p) : ∃ t, HasKind (.map es) t := by
  rw [typed] at h
  split at h
  · cases h
  · next hkeys =>
    have hkeys : ∀ e ∈ es, e.1.isStr = true := by simpa using hkeys
    obtain ⟨⟨types, entries⟩, hes, h⟩ := Except.of_bind_ok h
    obtain ⟨htypes, -⟩ := scalars_ok_iff.mp hes
    cases htypes with
    | nil => exact ⟨_, .empty⟩
    | cons he hrest =>
      obtain ⟨t, ht, rfl⟩ := he
      dsimp only at h
      split at h
      · next hsame =>
        have hrest := of?_of_same hrest (List.all_eq_true.mp hsame)
        exact ⟨.map t, .map (List.cons_ne_nil _ _) hkeys (List.forall_mem_cons.mpr ⟨ht, hrest⟩)⟩
      · cases h

/-- No other value has a type. -/
theorem hasKind_of_typed {v : Value} {p : Value × Value} (h : typed v = .ok p) :
    ∃ t, HasKind v t := by
  by_cases hmap : ∃ es, v = .map es
  · obtain ⟨es, rfl⟩ := hmap
    exact hasKind_of_typed_map h
  · rw [typed_eq_scalar fun es hes => hmap ⟨es, hes⟩] at h
    obtain ⟨t, ht, -⟩ := scalar_ok_iff.mp h
    exact ⟨.single t, .single ht⟩

/-- A value has a node just if it has a type, and the node is that of the type. -/
theorem node_isOk_iff {v : Value} {f : String} :
    (∃ n, node v f = .ok n) ↔ ∃ t, HasKind v t := by
  constructor
  · rintro ⟨n, h⟩
    obtain ⟨p, hp, -⟩ := Except.of_bind_ok h
    exact hasKind_of_typed hp
  · rintro ⟨t, ht⟩
    exact ⟨wrappingNode t.node f, by rw [node, ht.typed]; rfl⟩

theorem HasKind.node {v : Value} {t : Kind} (h : HasKind v t) (f : String) :
    node v f = .ok (wrappingNode t.node f) := by
  rw [PlainValue.node, h.typed]
  rfl

theorem HasKind.row {v : Value} {t : Kind} (h : HasKind v t) (f : String) :
    row v f = .ok (Value.ofFields [(f, stored v)]) := by
  have hnull : v ≠ .null := by
    rintro rfl
    cases h with
    | single h => cases h
  rw [PlainValue.row, h.typed]
  · rfl
  · exact hnull

/-- A value without a type makes no row either. -/
theorem row_error {v : Value} (h : ¬∃ t, HasKind v t) (f : String) :
    ∃ failure, row v f = .error failure := by
  cases hrow : row v f with
  | error failure => exact ⟨failure, rfl⟩
  | ok r =>
    unfold PlainValue.row at hrow
    split at hrow
    · cases hrow
    · obtain ⟨p, hp, -⟩ := Except.of_bind_ok hrow
      exact absurd (hasKind_of_typed hp) h

/-! ## Descriptors -/

open Json (Faithful)

theorem faithful_scalar (t : Scalar) : Faithful t.node := by
  rw [Scalar.node]
  cases t.logical? with
  | none => exact .str _
  | some logical => exact .fields _ (by simp) (by simp [Faithful.str])

theorem faithful_kind (t : Kind) : Faithful t.node := by
  cases t with
  | single t => exact faithful_scalar t
  | map t => exact .fields _ (by simp) (by simpa using ⟨.str _, faithful_scalar t⟩)

theorem faithful_recordNode (name : String) (fields : List (String × Value))
    (h : ∀ f ∈ fields, Faithful f.2) :
    Faithful (Value.ofFields [("type", .str "record"), ("name", .str name), ("fields",
      .list (fields.map fun f => Value.ofFields [("name", .str f.1), ("type", f.2)]))]) := by
  have hfields : ∀ x ∈ fields.map fun f => Value.ofFields [("name", .str f.1), ("type", f.2)],
      Faithful x := by
    intro x hx
    obtain ⟨f, hf, rfl⟩ := List.mem_map.mp hx
    exact .fields _ (by simp) (by simpa using ⟨.str _, h f hf⟩)
  exact .fields _ (by simp) (by simpa using ⟨.str _, .str _, .list _ hfields⟩)

theorem faithful_wrappingNode {type : Value} (h : Faithful type) (f : String) :
    Faithful (wrappingNode type f) :=
  faithful_recordNode recordName [(f, type)] (by simpa using h)

/-- The descriptor of a plain value says the node that it was printed from. -/
theorem HasKind.descriptor {v : Value} {t : Kind} (h : HasKind v t) (f : String) :
    ∃ text, descriptor v f = .ok text ∧
      Avro.Descriptor.load (some text) = .ok (wrappingNode t.node f) := by
  obtain ⟨text, hprint, hload⟩ := (faithful_wrappingNode (faithful_kind t) f).load_print
  refine ⟨text, ?_, hload⟩
  rw [PlainValue.descriptor, h.node f]
  change (match Json.print? (wrappingNode t.node f) with
    | some text => Except.ok text
    | none => _) = _
  rw [hprint]

/-! ## Schemas -/

/-- The record that values of a type are stored in. -/
def Kind.record (t : Kind) (f : String) : Avro.Schema :=
  .record false recordName [(⟨.str f, []⟩, t.schema)] []

section Parsing

open Avro Avro.Schema

theorem liftM_ok {α : Type} (a : α) :
    (liftM (Except.ok a : Except SchemaFault α) : Reading α) = pure a := rfl

theorem parseNode_scalar (t : Scalar) (scope : Scope) :
    parseNode t.node scope none = pure t.schema := by
  cases t <;>
    simp [Scalar.node, Scalar.schema, Scalar.logical?, Scalar.primitive, Primitive.name,
      logicalNode, Value.ofFields, parseNode, required, Value.field?_cons, Value.field?_nil,
      Value.isText, attributesOf, reservedKeys, isDecimal, checkDefault, liftM_ok,
      Primitive.ofName?, Value.entry]

theorem parseNode_map {type : Value} {scope : Scope} {s : Avro.Schema}
    (h : parseNode type scope none = pure s) :
    parseNode (mapNode type) scope none = pure (.map s []) := by
  simp [mapNode, Value.ofFields, parseNode, required, Value.field?_cons, Value.field?_nil,
    Value.isText, parseChildren, child, attributesOf, reservedKeys, isDecimal, checkDefault,
    liftM_ok, h]

theorem parseNode_kind (t : Kind) (scope : Scope) :
    parseNode t.node scope none = pure t.schema := by
  cases t with
  | single t => exact parseNode_scalar t scope
  | map t => exact parseNode_map (parseNode_scalar t scope)

theorem parseNode_wrappingNode {type : Value} {s : Avro.Schema} (f : String)
    (h : parseNode type .top none = pure s) :
    parseNode (wrappingNode type f) .top none =
      (fun _ => Avro.Schema.record false recordName [(⟨.str f, []⟩, s)] []) <$>
        define recordName := by
  rw [Scope.top] at h ⊢
  simp [wrappingNode, recordName, Value.ofFields, parseNode, required, Value.field?_cons,
    Value.field?_nil, Value.isText, parseChildren, child, attributesOf, reservedKeys, isDecimal,
    checkDefault, liftM_ok, parseFields, parseFieldList, parseField, fieldAttributesOf, fullNameOf,
    nameWithin, defineIn, Scope.default?, Value.isTruthy, h]

/-- The node that wraps a type is never taken as it is, whatever the type is marked as. -/
theorem parseTop_wrappingNode (type : Value) (f : String) :
    parseTop (wrappingNode type f) = parseOne (wrappingNode type f) := by
  simp [wrappingNode, Value.ofFields, parseTop, Value.field?_cons, Value.field?_nil,
    Value.isText, checkedKey]

/-- The schema that is parsed from the node of a type is the record for that type. -/
theorem parse_wrappingNode (t : Kind) (f : String) :
    parse (wrappingNode t.node f) = .ok (t.record f) := by
  rw [parse, parseTop_wrappingNode, parseOne,
    parseNode_wrappingNode f (parseNode_kind t .top)]
  rfl

end Parsing

section Stripping

open Avro.NullFree

theorem strip_scalar (t : Scalar) : strip t.node = .ok t.node := by
  cases t <;>
    simp [Scalar.node, Scalar.logical?, Scalar.primitive, Avro.Primitive.name, logicalNode,
      Value.ofFields, strip, Value.field?_cons, Value.isText, Pure.pure, Except.pure]

theorem strip_kind (t : Kind) : strip t.node = .ok t.node := by
  cases t with
  | single t => exact strip_scalar t
  | map t =>
    simp [Kind.node, mapNode, Value.ofFields, strip, requireKey, stripEntry, Value.field?_cons,
      Value.isText, strip_scalar, Bind.bind, Except.bind, Pure.pure, Except.pure]

/-- There is no null in a node of a type. -/
theorem strip_wrappingNode (t : Kind) (f : String) :
    strip (wrappingNode t.node f) = .ok (wrappingNode t.node f) := by
  simp [wrappingNode, Value.ofFields, strip, requireKey, stripEntry, stripFieldsEntry, stripFields,
    withFields, dropNullDefault, isNullDefault, Value.field?_cons, Value.isText, strip_kind,
    Bind.bind, Except.bind, Pure.pure, Except.pure]

end Stripping

theorem settle_record (t : Kind) (f : String) : (t.record f).settle = .ok (t.record f) := rfl

end PlainValue
end StreamTable
