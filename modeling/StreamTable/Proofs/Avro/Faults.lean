/-
Faults of reading schemas.  A fault is reported if it counts as one of the schema.  Reading a node
fails with reported faults only, unless an object in it has a name that is no text and holds a dot,
or a decimal size beyond all bounds.

A node that was read has neither, and can be stripped of nulls.  What is left has neither as well,
so reading that once more fails with reported faults only.  None of this is known of the nodes that
are marked as checked, for these are not read.
-/
import StreamTable.Avro.Descriptor
import StreamTable.Proofs.Avro.Reading

namespace StreamTable
namespace Avro
namespace Schema

open Value

/-! ## The nodes inside a node -/

/-- The node of a field's type. -/
def fieldType? : Value → Option Value
  | .map es => Value.field? es "type"
  | _ => none

/-- The nodes in an object of a kind that are read as schemas. -/
def nodesOfKind (es : List (Value × Value)) : String → List Value
  | "array" => (Value.field? es "items").toList
  | "map" => (Value.field? es "values").toList
  | "record" => (fieldNodes (Value.field? es "fields")).filterMap fieldType?
  | "error" => (fieldNodes (Value.field? es "fields")).filterMap fieldType?
  | _ => []

/-- The nodes right inside a node that are read as schemas. -/
def inner : Value → List Value
  | .list xs => xs
  | .map es =>
    match Value.field? es "type" with
    | some (.str kind) => nodesOfKind es kind
    | _ => []
  | _ => []

/-- What holds of a node and of all nodes inside it. -/
inductive Throughout (P : Value → Prop) : Value → Prop where
  | intro {node : Value} (here : P node) (inside : ∀ x ∈ inner node, Throughout P x) :
    Throughout P node

section Inner

variable {es : List (Value × Value)} {v : Value}

theorem inner_map {kind : String} (htype : Value.field? es "type" = some (.str kind)) :
    inner (.map es) = nodesOfKind es kind := by
  rw [inner, htype]

theorem sizeOf_field? {key : String} (h : Value.field? es key = some v) :
    sizeOf v < sizeOf es := by
  obtain ⟨e, he, rfl⟩ := Option.map_eq_some_iff.mp h
  have hlt := List.sizeOf_lt_of_mem (List.mem_of_find?_eq_some he)
  have hsnd : sizeOf e.2 < sizeOf e := by
    obtain ⟨k, v⟩ := e
    show sizeOf v < sizeOf (k, v)
    rw [Prod.mk.sizeOf_spec]
    omega
  omega

theorem sizeOf_fieldType? {x t : Value} (h : fieldType? x = some t) : sizeOf t < sizeOf x := by
  cases x with
  | map es =>
    have := sizeOf_field? h
    rw [Value.map.sizeOf_spec]
    omega
  | _ => cases h

theorem sizeOf_fieldNodes {x : Value} (hx : x ∈ fieldNodes (some v)) : sizeOf x < sizeOf v := by
  cases v with
  | list xs =>
    have := List.sizeOf_lt_of_mem (show x ∈ xs from hx)
    rw [Value.list.sizeOf_spec]
    omega
  | tuple xs =>
    have := List.sizeOf_lt_of_mem (show x ∈ xs from hx)
    rw [Value.tuple.sizeOf_spec]
    omega
  | _ => cases hx

/-- A node in an object stands under one of its keys, or it is the type of a field. -/
theorem of_mem_nodesOfKind {kind : String} {x : Value} (hx : x ∈ nodesOfKind es kind) :
    (∃ key, Value.field? es key = some x) ∨
      ∃ v f, Value.field? es "fields" = some v ∧ f ∈ fieldNodes (some v) ∧
        fieldType? f = some x := by
  have hfields (hx : x ∈ (fieldNodes (Value.field? es "fields")).filterMap fieldType?) :
      ∃ v f, Value.field? es "fields" = some v ∧ f ∈ fieldNodes (some v) ∧
        fieldType? f = some x := by
    obtain ⟨f, hf, hx⟩ := List.mem_filterMap.mp hx
    cases hv : Value.field? es "fields" with
    | none =>
      rw [hv] at hf
      cases hf
    | some v =>
      rw [hv] at hf
      exact ⟨v, f, rfl, hf, hx⟩
  unfold nodesOfKind at hx
  split at hx
  · exact .inl ⟨"items", Option.mem_toList.mp hx⟩
  · exact .inl ⟨"values", Option.mem_toList.mp hx⟩
  · exact .inr (hfields hx)
  · exact .inr (hfields hx)
  · cases hx

theorem sizeOf_nodesOfKind {kind : String} {x : Value} (hx : x ∈ nodesOfKind es kind) :
    sizeOf x < sizeOf es := by
  obtain ⟨key, hx⟩ | ⟨v, f, hv, hf, hx⟩ := of_mem_nodesOfKind hx
  · exact sizeOf_field? hx
  · have := sizeOf_fieldType? hx
    have := sizeOf_fieldNodes hf
    have := sizeOf_field? hv
    omega

theorem sizeOf_inner {node x : Value} (hx : x ∈ inner node) : sizeOf x < sizeOf node := by
  cases node with
  | list xs =>
    have := List.sizeOf_lt_of_mem (show x ∈ xs from hx)
    rw [Value.list.sizeOf_spec]
    omega
  | map es =>
    rw [inner] at hx
    split at hx
    · have := sizeOf_nodesOfKind hx
      rw [Value.map.sizeOf_spec]
      omega
    · cases hx
  | _ => cases hx

end Inner

/-- Induction on the nodes inside a node. -/
theorem inner_induction {P : Value → Prop} (h : ∀ node, (∀ x ∈ inner node, P x) → P node)
    (node : Value) : P node :=
  h node fun x _hx => inner_induction h x
termination_by sizeOf node
decreasing_by exact sizeOf_inner _hx

theorem Throughout.mono {P Q : Value → Prop} {node : Value} (hPQ : ∀ v, P v → Q v)
    (h : Throughout P node) : Throughout Q node := by
  induction h with
  | intro here _ ih => exact ⟨hPQ _ here, ih⟩

theorem fieldNodes_keyed {v : Value} (h : v.Keyed) : ∀ x ∈ fieldNodes (some v), x.Keyed := by
  cases v with
  | list xs => exact h.items
  | tuple xs => exact absurd h.regular Value.Regular.not_tuple
  | _ => exact List.forall_mem_nil _

theorem fieldType?_keyed {x t : Value} (h : x.Keyed) (ht : fieldType? x = some t) : t.Keyed := by
  cases x with
  | map es => exact h.entries.field? ht
  | _ => cases ht

theorem inner_keyed {node x : Value} (h : node.Keyed) (hx : x ∈ inner node) : x.Keyed := by
  cases node with
  | list xs => exact h.items x hx
  | map es =>
    rw [inner] at hx
    split at hx
    · obtain ⟨key, hx⟩ | ⟨v, f, hv, hf, hx⟩ := of_mem_nodesOfKind hx
      · exact h.entries.field? hx
      · exact fieldType?_keyed (fieldNodes_keyed (h.entries.field? hv) f hf) hx
    · cases hx
  | _ => cases hx

/-! ## What breaks the reader off -/

/-- Whether a name that is no text holds a dot. -/
def holdsDot : Option Value → Bool
  | none => false
  | some (.str _) => false
  | some name => (name.elements?.getD []).any (·.isText ".")

def isNamedKind (kind : String) : Bool := ["record", "error", "enum", "fixed"].contains kind

theorem nodesOfKind_record (es : List (Value × Value)) {kind : String}
    (h : (decide (kind = "record") || decide (kind = "error")) = true) :
    isNamedKind kind = true ∧
      nodesOfKind es kind = (fieldNodes (Value.field? es "fields")).filterMap fieldType? := by
  obtain rfl | rfl : kind = "record" ∨ kind = "error" := by simpa using h
  · exact ⟨rfl, rfl⟩
  · exact ⟨rfl, rfl⟩

/-- The check of the decimal attributes of an object, if they are meant as such. -/
def checkAttributes (es : List (Value × Value)) (type : Value) : Except SchemaFault Unit :=
  if isDecimal (attributesOf es) then
    checkDecimal (attributesOf es)
      (if type.isText "fixed" then some (required es "size") else none)
  else .ok ()

/-- An object that does not break the reader off. -/
structure TameEntries (es : List (Value × Value)) : Prop where
  name : ∀ {kind}, Value.field? es "type" = some (.str kind) → isNamedKind kind = true →
    holdsDot (Value.field? es "name") = false
  size : ∀ {type}, Value.field? es "type" = some type →
    checkAttributes es type ≠ .error (.data .overflow)

/-- A node that does not break the reader off, whatever stands inside it. -/
def Tame : Value → Prop
  | .map es => TameEntries es
  | _ => True

/-- A fault that counts as one of the schema. -/
def Reported (fault : SchemaFault) : Prop := Descriptor.isReported fault = true

/-- A computation that fails with reported faults only. -/
abbrev Reports {α : Type} (x : Reading α) : Prop := FailsOnly Reported x

theorem required_reported {es : List (Value × Value)} {key : String} {fault : SchemaFault}
    (h : required es key = .error fault) : Reported fault := by
  unfold required at h
  split at h
  · cases h
  · cases h
    rfl

theorem check_reported {scope : Scope} {c : Except SchemaFault Unit} {fault : SchemaFault}
    (hc : c = .error fault → Reported fault) (h : scope.check c = .error fault) :
    Reported fault := by
  cases scope with
  | within around => exact hc h
  | verbatim => cases h

theorem checkDefault_reported {default? : Option Value} {accepts : Value → Bool}
    {fault : SchemaFault} (h : checkDefault default? accepts = .error fault) : Reported fault := by
  unfold checkDefault at h
  split at h
  · split at h
    · cases h
    · cases h
      rfl
  · cases h

theorem isSymbol_reported {symbols v : Value} {fault : DataFault}
    (h : isSymbol symbols v = .error fault) : Reported (.data fault) := by
  unfold isSymbol at h
  split at h
  · split at h
    · cases h
    · cases h
      rfl
  · split at h
    · cases h
    · cases h
      rfl
  · split at h
    · cases h
    · cases h
      rfl
  · split at h
    · cases h
    · cases h
      rfl

theorem checkSymbols_reported {es : List (Value × Value)} {fault : SchemaFault}
    (h : checkSymbols es = .error fault) : Reported fault := by
  unfold checkSymbols at h
  obtain h | ⟨symbols, -, h⟩ := Except.of_bind_error h
  · exact required_reported h
  · split at h
    · cases h
      rfl
    · dsimp only at h
      split at h
      · cases h
        rfl
      · split at h
        · cases h
          rfl
        · split at h
          · cases h
          · split at h
            · cases h
            · cases h
              rfl
            · rename_i hsymbol
              cases h
              exact isSymbol_reported hsymbol

theorem nameWithin_reported {es : List (Value × Value)} {around : Value} {fault : SchemaFault}
    (hname : holdsDot (Value.field? es "name") = false)
    (h : nameWithin es around = .error fault) : Reported fault := by
  have hnodot {xs : List Value} {c : Bool} {x : Value × String}
      (hxs : xs.any (·.isText ".") = false)
      (h : (if xs.any (·.isText ".") then .error (.data .noSuchAttribute)
        else if c then .ok x else .error (.data .wrongType)) = Except.error fault) :
      Reported fault := by
    rw [hxs, if_neg Bool.false_ne_true] at h
    split at h
    · cases h
    · cases h
      rfl
  unfold nameWithin at h
  split at h
  · cases h
    rfl
  · rename_i name hfield
    rw [hfield] at hname
    dsimp only at h
    split at h
    · split at h
      · cases h
      · split at h <;> cases h
    · exact hnodot hname h
    · exact hnodot hname h
    · exact hnodot hname h
    · exact hnodot hname h
    · cases h
      rfl

theorem fullNameOf_reported {es : List (Value × Value)} {scope : Scope} {fault : SchemaFault}
    (hname : holdsDot (Value.field? es "name") = false)
    (h : fullNameOf es scope = .error fault) : Reported fault := by
  cases scope with
  | within around =>
    obtain h | ⟨_, -, h⟩ := Except.of_bind_error h
    · exact nameWithin_reported hname h
    · cases h
  | verbatim =>
    obtain h | ⟨_, -, h⟩ := Except.of_bind_error h
    · exact required_reported h
    · cases h

theorem holdsDot_of_nameWithin {es : List (Value × Value)} {around : Value} {x : Value × String}
    (h : nameWithin es around = .ok x) : holdsDot (Value.field? es "name") = false := by
  have hnodot {xs : List Value} {c : Bool} {y : Value × String}
      (h : (if xs.any (·.isText ".") then .error (.data .noSuchAttribute)
        else if c then .ok y else .error (.data .wrongType)) = (.ok x : Except SchemaFault _)) :
      xs.any (·.isText ".") = false := by
    split at h
    · cases h
    · rename_i hxs
      exact Bool.eq_false_iff.mpr hxs
  unfold nameWithin at h
  split at h
  · cases h
  · rename_i name hfield
    rw [hfield]
    dsimp only at h
    split at h
    · rfl
    · exact hnodot h
    · exact hnodot h
    · exact hnodot h
    · exact hnodot h
    · cases h

theorem maxPrecision_reported {size : Value} {fault : SchemaFault}
    (h : maxPrecision size = .error fault) : Reported fault ∨ fault = .data .overflow := by
  unfold maxPrecision at h
  dsimp only at h
  split at h
  · split at h
    · cases h
      exact .inl rfl
    · split at h
      · cases h
      · cases h
        exact .inr rfl
  · split at h
    · split at h
      · split at h
        · cases h
          exact .inl rfl
        · split at h
          · cases h
          · cases h
            exact .inr rfl
      · cases h
        exact .inr rfl
    · cases h
      exact .inl rfl

theorem checkedScale_reported {attrs : Attributes} {fault : SchemaFault}
    (h : checkedScale attrs = .error fault) : Reported fault := by
  unfold checkedScale at h
  split at h
  · cases h
  · split at h
    · cases h
    · split at h
      · split at h
        · cases h
          rfl
        · cases h
      · cases h
        rfl

theorem checkedPrecision_reported {attrs : Attributes}
    {fixedSize : Option (Except SchemaFault Value)} {fault : SchemaFault}
    (hsize : ∀ f, fixedSize = some (.error f) → Reported f)
    (h : checkedPrecision attrs fixedSize = .error fault) :
    Reported fault ∨ fault = .data .overflow := by
  unfold checkedPrecision at h
  dsimp only at h
  split at h
  · cases h
  · split at h
    · cases h
    · split at h
      · cases h
        exact .inl rfl
      · split at h
        · cases h
          exact .inl rfl
        · split at h
          · cases h
          · obtain h | ⟨size, -, h⟩ := Except.of_bind_error h
            · exact .inl (hsize fault (congrArg some h))
            · obtain h | ⟨most, -, h⟩ := Except.of_bind_error h
              · exact maxPrecision_reported h
              · split at h
                · cases h
                  exact .inl rfl
                · cases h

/-- The check of a decimal type breaks off only at a size beyond all bounds. -/
theorem checkDecimal_reported {attrs : Attributes} {fixedSize : Option (Except SchemaFault Value)}
    {fault : SchemaFault} (hsize : ∀ f, fixedSize = some (.error f) → Reported f)
    (h : checkDecimal attrs fixedSize = .error fault) : Reported fault ∨ fault = .data .overflow := by
  unfold checkDecimal at h
  obtain h | ⟨scale, -, h⟩ := Except.of_bind_error h
  · exact .inl (checkedScale_reported h)
  · obtain h | ⟨precision, -, h⟩ := Except.of_bind_error h
    · exact checkedPrecision_reported hsize h
    · split at h
      · split at h
        · cases h
          exact .inl rfl
        · cases h
      · cases h

theorem TameEntries.check_reported {es : List (Value × Value)} (h : TameEntries es) {type : Value}
    (htype : Value.field? es "type" = some type) {fault : SchemaFault}
    (hfault : checkAttributes es type = .error fault) : Reported fault := by
  have hsize := h.size htype
  unfold checkAttributes at hfault hsize
  split at hfault
  · rename_i hdecimal
    rw [if_pos hdecimal, hfault] at hsize
    refine (checkDecimal_reported ?_ hfault).resolve_right fun he => hsize (he ▸ rfl)
    intro f hf
    split at hf
    · exact required_reported (Option.some.inj hf)
    · cases hf
  · cases hfault

/-! ## Reading -/

section Children

variable {es : List (Value × Value)} {key : String}

theorem find?_parseChildren (es : List (Value × Value)) (key : String) :
    (parseChildren es).find? (fun e => e.1.isText key) =
      (es.find? fun e => e.1.isText key).map fun e =>
        (e.1, ⟨fun scope default? => parseNode e.2 scope default?, fun scope => parseFields e.2 scope⟩) := by
  induction es with
  | nil =>
    rw [parseChildren]
    rfl
  | cons e es ih =>
    rw [parseChildren, List.find?_cons, List.find?_cons, ih]
    cases e.1.isText key <;> rfl

/-- The child under a key reads the value under that key. -/
theorem of_find?_parseChildren {e : Value × Child}
    (h : (parseChildren es).find? (fun e => e.1.isText key) = some e) :
    ∃ v, Value.field? es key = some v ∧
      e.2 = ⟨fun scope default? => parseNode v scope default?, fun scope => parseFields v scope⟩ := by
  rw [find?_parseChildren] at h
  obtain ⟨e', he', rfl⟩ := Option.map_eq_some_iff.mp h
  exact ⟨e'.2, by rw [field?_eq_find?, he']; rfl, rfl⟩

theorem of_child {c : Child} (h : child (parseChildren es) key = .ok c) :
    ∃ v, Value.field? es key = some v ∧
      c = ⟨fun scope default? => parseNode v scope default?, fun scope => parseFields v scope⟩ := by
  unfold child at h
  split at h
  · rename_i e he
    cases h
    exact of_find?_parseChildren he
  · cases h

theorem child_reported {children : List (Value × Child)} {fault : SchemaFault}
    (h : child children key = .error fault) : Reported fault := by
  unfold child at h
  split at h
  · cases h
  · cases h
    rfl

end Children

theorem define_reports (name : String) : Reports (define name) := by
  refine failsOnly_bind failsOnly_get fun names _ => ?_
  exact failsOnly_of_check (fun _ => failsOnly_throw rfl) (failsOnly_set _)

theorem defineIn_reports (scope : Scope) (name : String) : Reports (defineIn scope name) := by
  cases scope with
  | within around => exact define_reports name
  | verbatim => exact failsOnly_pure ()

theorem referenceWithin_reports (s : String) (around : Value) :
    Reports (referenceWithin s around) := by
  have hknown (name : String) : Reports (do
      if (← get).known.contains name then pure (Schema.named name)
      else throw (.unknownName name)) := by
    refine failsOnly_bind failsOnly_get fun names _ => ?_
    split
    · exact failsOnly_pure _
    · exact failsOnly_throw rfl
  unfold referenceWithin
  dsimp only
  split
  · split
    · exact failsOnly_bind (failsOnly_pure _) fun name _ => hknown name
    · exact failsOnly_bind (failsOnly_throw rfl) fun name _ => hknown name
  · exact failsOnly_bind (failsOnly_pure _) fun name _ => hknown name

theorem readReference_reports (s : String) (scope : Scope) : Reports (readReference s scope) := by
  cases scope with
  | within around => exact referenceWithin_reports s around
  | verbatim => exact failsOnly_pure _

theorem noFields_reports (scope : Scope) : Reports (noFields scope) := by
  cases scope with
  | within around => exact failsOnly_pure _
  | verbatim => exact failsOnly_throw rfl

theorem refuseFields_reports (xs : List Value) : Reports (refuseFields xs) := by
  cases xs with
  | nil => exact failsOnly_pure _
  | cons x xs => exact failsOnly_throw rfl

theorem parseBranches_reports {xs : List Value}
    (h : ∀ x ∈ xs, ∀ scope default?, Reports (parseNode x scope default?)) (scope : Scope) :
    Reports (parseBranches xs scope) := by
  induction xs with
  | nil =>
    rw [parseBranches]
    exact failsOnly_pure _
  | cons x xs ih =>
    rw [parseBranches]
    refine failsOnly_bind (h x List.mem_cons_self scope none) fun s _ => ?_
    refine failsOnly_bind (ih fun y hy => h y (List.mem_cons_of_mem x hy)) fun rest _ => ?_
    exact failsOnly_pure _

theorem parseField_reports {x : Value}
    (h : ∀ t, fieldType? x = some t → ∀ scope default?, Reports (parseNode t scope default?))
    (scope : Scope) : Reports (parseField x scope) := by
  cases x with
  | map es =>
    rw [parseField]
    split
    · exact failsOnly_throw rfl
    · split
      · exact failsOnly_throw rfl
      · rename_i type htype
        obtain ⟨t, ht, hchild⟩ := of_find?_parseChildren htype
        rw [hchild]
        dsimp only
        have hschema (name : Value) : Reports (do
            let schema ← parseNode t scope (scope.default? es)
            pure ((⟨name, fieldAttributesOf es⟩, schema) : Field)) :=
          failsOnly_bind (h t ht scope _) fun s _ => failsOnly_pure _
        split
        · refine failsOnly_bind (failsOnly_lift fun fault hfault => ?_) fun _ _ => hschema _
          refine check_reported (fun hfault => ?_) hfault
          split at hfault
          · cases hfault
            rfl
          · cases hfault
        · exact hschema _
  | _ =>
    simp only [parseField]
    exact failsOnly_throw rfl

theorem parseFieldList_reports {xs : List Value}
    (h : ∀ t ∈ xs.filterMap fieldType?, ∀ scope default?, Reports (parseNode t scope default?))
    (scope : Scope) : Reports (parseFieldList xs scope) := by
  induction xs with
  | nil =>
    rw [parseFieldList]
    exact failsOnly_pure _
  | cons x xs ih =>
    rw [parseFieldList]
    refine failsOnly_bind (parseField_reports (fun t ht => h t ?_) scope) fun f _ => ?_
    · exact List.mem_filterMap.mpr ⟨x, List.mem_cons_self, ht⟩
    · refine failsOnly_bind (ih fun t ht => h t ?_) fun rest _ => failsOnly_pure _
      obtain ⟨y, hy, ht⟩ := List.mem_filterMap.mp ht
      exact List.mem_filterMap.mpr ⟨y, List.mem_cons_of_mem x hy, ht⟩

theorem parseFields_reports {v : Value}
    (h : ∀ t ∈ (fieldNodes (some v)).filterMap fieldType?, ∀ scope default?,
      Reports (parseNode t scope default?)) (scope : Scope) : Reports (parseFields v scope) := by
  cases v with
  | list xs =>
    rw [parseFields]
    exact parseFieldList_reports h scope
  | tuple xs =>
    rw [parseFields]
    exact parseFieldList_reports h scope
  | map _ | str _ | set _ | bytes _ | bytearray _ =>
    rw [parseFields]
    exact refuseFields_reports _
  | _ =>
    simp only [parseFields]
    exact failsOnly_throw rfl

/-- Checking the default is the last thing that can fail before a schema is given. -/
theorem afterDefault_reports (default? : Option Value) (accepts : Value → Bool) (s : Schema) :
    Reports (do
      checkDefault default? accepts
      pure s) :=
  failsOnly_bind (failsOnly_lift fun _ => checkDefault_reported) fun _ _ => failsOnly_pure _

/-- Arrays and maps are read from one node, which is under a key. -/
theorem fromChild_reports {es : List (Value × Value)} {key : String}
    (h : ∀ v, Value.field? es key = some v → ∀ scope default?,
      Reports (parseNode v scope default?))
    (scope : Scope) (default? : Option Value) (accepts : Value → Bool) (make : Schema → Schema) :
    Reports (do
      let inside ← (← child (parseChildren es) key).schema scope none
      checkDefault default? accepts
      pure (make inside)) := by
  refine failsOnly_bind (failsOnly_lift fun _ => child_reported) fun c hc => ?_
  obtain ⟨v, hv, rfl⟩ := of_child (yields_lift hc)
  exact failsOnly_bind (h v hv scope none) fun inside _ => afterDefault_reports _ _ _

/-- Reading an object that does not break the reader off, if reading the nodes inside it fails with
reported faults only. -/
theorem parseNode_map_reports {es : List (Value × Value)} (htame : TameEntries es)
    (ih : ∀ x ∈ inner (.map es), ∀ scope default?, Reports (parseNode x scope default?))
    (scope : Scope) (default? : Option Value) :
    Reports (parseNode (.map es) scope default?) := by
  rw [parseNode]
  refine failsOnly_bind (failsOnly_lift fun _ => required_reported) fun type htype => ?_
  have htype := required_eq_ok (yields_lift htype)
  refine failsOnly_of_check (fun hdecimal => failsOnly_lift fun fault hfault => ?_) ?_
  · refine check_reported (fun hfault => htame.check_reported htype ?_) hfault
    rw [checkAttributes, if_pos hdecimal]
    exact hfault
  · dsimp only
    split
    -- arrays and maps: one node under a key
    · refine fromChild_reports (fun v hv => ih v ?_) scope default? isList fun s => .array s _
      rw [inner_map htype]
      exact Option.mem_toList.mpr hv
    · refine fromChild_reports (fun v hv => ih v ?_) scope default? isMap fun s => .map s _
      rw [inner_map htype]
      exact Option.mem_toList.mpr hv
    -- enums and fixed types: a name, but no node inside
    · refine failsOnly_bind (failsOnly_lift fun _ =>
        fullNameOf_reported (htame.name htype rfl)) fun name _ => ?_
      refine failsOnly_bind (defineIn_reports scope name.2) fun _ _ => ?_
      refine failsOnly_bind (failsOnly_lift fun _ => check_reported checkSymbols_reported) fun _ _ => ?_
      refine failsOnly_bind (failsOnly_lift fun _ => checkDefault_reported) fun _ _ => ?_
      exact failsOnly_bind (failsOnly_lift fun _ => required_reported) fun _ _ =>
        failsOnly_pure _
    · refine failsOnly_bind (failsOnly_lift fun _ =>
        fullNameOf_reported (htame.name htype rfl)) fun name _ => ?_
      refine failsOnly_bind (defineIn_reports scope name.2) fun _ _ => ?_
      exact failsOnly_bind (failsOnly_lift fun _ => required_reported) fun size _ =>
        afterDefault_reports _ _ _
    -- records, primitive types given as objects, and unknown kinds
    · rename_i t _ _ _ _ _
      split
      · rename_i ht
        obtain ⟨hnamed, hnodes⟩ := nodesOfKind_record es ht
        refine failsOnly_bind (failsOnly_lift fun _ =>
          fullNameOf_reported (htame.name htype hnamed)) fun name _ => ?_
        refine failsOnly_bind (defineIn_reports scope name.2) fun _ _ => ?_
        split
        · rename_i e he
          obtain ⟨v, hv, hchild⟩ := of_find?_parseChildren he
          rw [hchild]
          refine failsOnly_bind (parseFields_reports (fun u hu => ih u ?_) name.1)
            fun fields _ => afterDefault_reports _ _ _
          rw [inner_map htype, hnodes, hv]
          exact hu
        · exact failsOnly_bind (noFields_reports scope) fun fields _ => afterDefault_reports _ _ _
      · split
        · exact afterDefault_reports _ _ _
        · exact failsOnly_throw rfl
    · refine failsOnly_throw ?_
      split
      · exact rfl
      · exact rfl

/-- Reading a node in which no object breaks the reader off fails with reported faults only. -/
theorem parseNode_reports {node : Value} (h : Throughout Tame node) (scope : Scope)
    (default? : Option Value) : Reports (parseNode node scope default?) := by
  induction h generalizing scope default? with
  | @intro node here inside ih =>
    cases node with
    | list xs =>
      rw [parseNode]
      refine failsOnly_bind (parseBranches_reports ih scope) fun branches _ => ?_
      split
      · split
        · exact failsOnly_pure _
        · exact failsOnly_throw rfl
      · exact failsOnly_pure _
    | str t =>
      rw [parseNode]
      split
      · exact afterDefault_reports _ _ _
      · exact readReference_reports t scope
    | map es => exact parseNode_map_reports here ih scope default?
    | _ =>
      simp only [parseNode]
      exact failsOnly_throw rfl

end Schema
end Avro
end StreamTable
