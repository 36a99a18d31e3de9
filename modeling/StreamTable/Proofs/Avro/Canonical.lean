/-
The canonical form of schemas whose nodes differ in the order of their keys.  What is read from
such nodes is alike, has the same form and, written back as nodes, differs again in nothing but the
order of keys.  So the two are alike however often they are read once more, and they have one
fingerprint.
-/
import StreamTable.Avro.Canonical
import StreamTable.Proofs.Avro.ReadAlike
import StreamTable.Record.PlainValue
import StreamTable.Store.Writer

namespace StreamTable
namespace Avro

open Value

namespace Schema

/-! ## Forms -/

mutual

theorem form_alike : ∀ {s t : Schema}, s.Alike t → Canonical.form s = Canonical.form t
  | .primitive _, _, h | .named _, _, h => by
    rw [h]
  | .annotated p a, _, h => by
    obtain ⟨a', rfl, -⟩ := h
    rfl
  | .array s a, _, h => by
    obtain ⟨s', a', rfl, hs, -⟩ := h
    rw [Canonical.form, Canonical.form, form_alike hs]
  | .map s a, _, h => by
    obtain ⟨s', a', rfl, hs, -⟩ := h
    rw [Canonical.form, Canonical.form, form_alike hs]
  | .enum name symbols a, _, h => by
    obtain ⟨a', rfl, -⟩ := h
    rfl
  | .fixed name size a, _, h => by
    obtain ⟨a', rfl, -⟩ := h
    rfl
  | .record isError name fields a, _, h => by
    obtain ⟨fields', a', rfl, hfields, -⟩ := h
    rw [Canonical.form, Canonical.form, fieldForms_alike hfields]
  | .union branches, _, h => by
    obtain ⟨branches', rfl, hbranches⟩ := h
    rw [Canonical.form, Canonical.form, branchForms_alike hbranches]
  | .unchecked node, _, h => by
    obtain ⟨node', rfl, -⟩ := h
    rfl

theorem branchForms_alike : ∀ {branches branches' : List Schema},
    BranchesAlike branches branches' →
      Canonical.branchForms branches = Canonical.branchForms branches'
  | [], _, h => by rw [h]
  | s :: rest, _, h => by
    obtain ⟨t, rest', rfl, hs, hrest⟩ := h
    rw [Canonical.branchForms, Canonical.branchForms, form_alike hs, branchForms_alike hrest]

theorem fieldForms_alike : ∀ {fields fields' : List Field}, FieldsAlike fields fields' →
    Canonical.fieldForms fields = Canonical.fieldForms fields'
  | [], _, h => by rw [h]
  | (f, s) :: rest, _, h => by
    obtain ⟨g, t, rest', rfl, hf, hs, hrest⟩ := h
    rw [Canonical.fieldForms, Canonical.fieldForms, hf.name, form_alike hs,
      fieldForms_alike hrest]

end

mutual

theorem definitions_alike : ∀ {s t : Schema}, s.Alike t →
    s.definitions.map (·.1) = t.definitions.map (·.1)
  | .primitive _, _, h | .named _, _, h => by
    rw [h]
  | .annotated p a, _, h => by
    obtain ⟨a', rfl, -⟩ := h
    rfl
  | .array s a, _, h => by
    obtain ⟨s', a', rfl, hs, -⟩ := h
    rw [definitions, definitions, definitions_alike hs]
  | .map s a, _, h => by
    obtain ⟨s', a', rfl, hs, -⟩ := h
    rw [definitions, definitions, definitions_alike hs]
  | .enum name symbols a, _, h => by
    obtain ⟨a', rfl, -⟩ := h
    rfl
  | .fixed name size a, _, h => by
    obtain ⟨a', rfl, -⟩ := h
    rfl
  | .record isError name fields a, _, h => by
    obtain ⟨fields', a', rfl, hfields, -⟩ := h
    rw [definitions, definitions, List.map_cons, List.map_cons, fieldDefinitions_alike hfields]
  | .union branches, _, h => by
    obtain ⟨branches', rfl, hbranches⟩ := h
    rw [definitions, definitions, branchDefinitions_alike hbranches]
  | .unchecked node, _, h => by
    obtain ⟨node', rfl, -⟩ := h
    rfl

theorem branchDefinitions_alike : ∀ {branches branches' : List Schema},
    BranchesAlike branches branches' →
      (branchDefinitions branches).map (·.1) = (branchDefinitions branches').map (·.1)
  | [], _, h => by rw [h]
  | s :: rest, _, h => by
    obtain ⟨t, rest', rfl, hs, hrest⟩ := h
    rw [branchDefinitions, branchDefinitions, List.map_append, List.map_append,
      definitions_alike hs, branchDefinitions_alike hrest]

theorem fieldDefinitions_alike : ∀ {fields fields' : List Field}, FieldsAlike fields fields' →
    (fieldDefinitions fields).map (·.1) = (fieldDefinitions fields').map (·.1)
  | [], _, h => by rw [h]
  | (f, s) :: rest, _, h => by
    obtain ⟨g, t, rest', rfl, -, hs, hrest⟩ := h
    rw [fieldDefinitions, fieldDefinitions, List.map_append, List.map_append,
      definitions_alike hs, fieldDefinitions_alike hrest]

end

/-! ## Nodes of schemas -/

variable {a a' : Attributes} {es fs : List (Value × Value)}

/-- An object of a kind, written as its attributes and what belongs to the kind. -/
theorem node_reordered (kind : String) (ha : AttributesAlike a a')
    (h : EntriesReordered (Place.inType kind) es fs) :
    Reordered .type (.map (a ++ Value.entry "type" (.str kind) :: es))
      (.map (a' ++ Value.entry "type" (.str kind) :: fs)) := by
  have htype : field? (a ++ Value.entry "type" (.str kind) :: es) "type" = some (.str kind) := by
    rw [field?_append, ha.own "type" (by decide), Option.none_or, field?_entry, if_pos rfl]
  have hunder : Place.type.under (a ++ Value.entry "type" (.str kind) :: es) = Place.inType kind :=
    funext fun key => Place.under_type htype key
  refine EntriesReordered.map (by decide) ?_
  rw [hunder]
  have hattributes : EntriesReordered (Place.inType kind) a a' := by
    refine ha.toEntriesReordered.congr fun key hkey => ?_
    refine (Place.inType_of_notMem fun hown => ?_).symm
    rw [ha.own key hown] at hkey
    cases hkey
  exact hattributes.append ((EntriesReordered.entry "type" (.atom _ _ rfl)).append h)

theorem entry_atom {place : String → Place} (key : String) {v : Value} (h : v.isAtom = true) :
    EntriesReordered place [Value.entry key v] [Value.entry key v] := .entry key (.atom _ v h)

theorem entry_exact {place : String → Place} {key : String} (h : place key = .exact) (v : Value) :
    EntriesReordered place [Value.entry key v] [Value.entry key v] := .entry key (h ▸ .exact v)

mutual

theorem toValue_alike : ∀ {s t : Schema}, s.Alike t → Reordered .type s.toValue t.toValue
  | .primitive _, _, h | .named _, _, h => by
    rw [h]
    exact .atom _ _ rfl
  | .annotated p a, _, h => by
    obtain ⟨a', rfl, ha⟩ := h
    exact node_reordered p.name ha (.nil _)
  | .array s a, _, h => by
    obtain ⟨s', a', rfl, hs, ha⟩ := h
    exact node_reordered "array" ha (.entry "items" (toValue_alike hs))
  | .map s a, _, h => by
    obtain ⟨s', a', rfl, hs, ha⟩ := h
    exact node_reordered "map" ha (.entry "values" (toValue_alike hs))
  | .enum name symbols a, _, h => by
    obtain ⟨a', rfl, ha⟩ := h
    exact node_reordered "enum" ha ((entry_atom "name" rfl).append (entry_exact rfl symbols))
  | .fixed name size a, _, h => by
    obtain ⟨a', rfl, ha⟩ := h
    exact node_reordered "fixed" ha ((entry_atom "name" rfl).append (entry_exact rfl size))
  | .record isError name fields a, _, h => by
    obtain ⟨fields', a', rfl, hfields, ha⟩ := h
    have hplace : Place.inType (if isError then "error" else "record") "fields" = .fields := by
      cases isError <;> rfl
    refine node_reordered _ ha ((entry_atom "name" rfl).append (.entry "fields" ?_))
    rw [hplace]
    exact fieldValues_alike hfields
  | .union branches, _, h => by
    obtain ⟨branches', rfl, hbranches⟩ := h
    exact branchValues_alike hbranches
  | .unchecked node, _, h => by
    obtain ⟨node', rfl, hnode⟩ := h
    exact hnode

theorem branchValues_alike : ∀ {branches branches' : List Schema},
    BranchesAlike branches branches' →
      Reordered .type (.list (branchValues branches)) (.list (branchValues branches'))
  | [], _, h => by
    rw [h]
    exact .nil (by decide)
  | s :: rest, _, h => by
    obtain ⟨t, rest', rfl, hs, hrest⟩ := h
    exact .cons (by decide) (toValue_alike hs) (branchValues_alike hrest)

theorem fieldValues_alike : ∀ {fields fields' : List Field}, FieldsAlike fields fields' →
    Reordered .fields (.list (fieldValues fields)) (.list (fieldValues fields'))
  | [], _, h => by
    rw [h]
    exact .nil (by decide)
  | (f, s) :: rest, _, h => by
    obtain ⟨g, t, rest', rfl, hf, hs, hrest⟩ := h
    refine .cons (by decide) (EntriesReordered.map (by decide) ?_) (fieldValues_alike hrest)
    have hattributes : EntriesReordered (Place.under .field
        (f.attributes ++ [Value.entry "name" f.name, Value.entry "type" s.toValue]))
        f.attributes g.attributes := by
      refine hf.attributes.congr fun key hkey => ?_
      have hne : key ≠ "type" ∧ key ≠ "name" := by
        constructor
        · rintro rfl
          rw [hf.type] at hkey
          cases hkey
        · rintro rfl
          rw [hf.noName] at hkey
          cases hkey
      rw [Place.under, if_neg hne.1, if_neg hne.2]
    rw [← hf.name]
    exact hattributes.append ((entry_exact rfl f.name).append (.entry "type" (toValue_alike hs)))

end

/-! ## Reading nodes as a whole -/

variable {v w : Value} {s t : Schema}

theorem parseOne_alike (h : Reordered .type v w) : Simulates Alike (parseOne v) (parseOne w) := by
  have hown : Simulates (fun _ _ => True)
      (modify fun m : Names => { m with own := [] } : Reading PUnit)
      (modify fun m : Names => { m with own := [] }) :=
    simulates_modify fun m n hmn => ⟨rfl, hmn.known⟩
  exact hown.bind fun _ _ _ => readsAlike h _ _ _ .none

/-- Names that become known in another order. -/
theorem know_alike {names names' : List String} (h : names.Perm names') :
    Simulates (fun _ _ => True)
      (modify fun m : Names => { m with known := names ++ m.known } : Reading PUnit)
      (modify fun m : Names => { m with known := names' ++ m.known }) :=
  simulates_modify fun m n hmn => ⟨hmn.own, fun name => by simp [h.mem_iff, hmn.known]⟩

theorem parseTop_map_alike (h : EntriesReordered (Place.type.under es) es fs) :
    Simulates Alike (parseTop (.map es)) (parseTop (.map fs)) := by
  have hone : Simulates Alike (parseOne (.map es)) (parseOne (.map fs)) :=
    parseOne_alike (h.map (by decide))
  rw [parseTop, parseTop, ← h.field?_isSome checkedKey]
  split
  · have hnamed := h.field?_rel namedKey
    generalize field? es namedKey = x, field? fs namedKey = x' at hnamed ⊢
    cases hnamed with
    | none => exact hone
    | @some x x' hx =>
      obtain rfl | ⟨xs, ys, rfl, rfl, -⟩ | ⟨table, table', rfl, rfl, hkeys⟩ := hx.eq_or_whole
      · cases x with
        | map table =>
          refine (know_alike (.refl _)).bind fun _ _ _ => ?_
          exact simulates_pure ⟨_, rfl, h.map (by decide)⟩
        | _ => exact simulates_throw
      · exact simulates_throw
      · have hnames : (table.map (·.1.text)).Perm (table'.map (·.1.text)) := by
          have hnames := hkeys.map Value.text
          rwa [List.map_map, List.map_map] at hnames
        refine (know_alike hnames).bind fun _ _ _ => ?_
        exact simulates_pure ⟨_, rfl, h.map (by decide)⟩
  · exact hone

theorem parseTops_alike {xs ys : List Value}
    (h : List.Forall₂ (fun v w => Simulates Alike (parseTop v) (parseTop w)) xs ys) :
    Simulates BranchesAlike (parseTops xs) (parseTops ys) := by
  induction h with
  | nil =>
    rw [parseTops]
    exact simulates_pure rfl
  | cons hx hxs ih =>
    rw [parseTops, parseTops]
    refine hx.bind fun s t hst => ih.bind fun rest rest' hrest => ?_
    exact simulates_pure ⟨t, rest', rfl, hst, hrest⟩

theorem parseTop_alike {p : Place} (h : Reordered p v w) (hp : p = .type) :
    Simulates Alike (parseTop v) (parseTop w) := by
  induction h with
  | exact v => cases hp
  | atom p v h =>
    have hone : Simulates Alike (parseOne v) (parseOne v) := parseOne_alike (.atom .type v h)
    cases v with
    | list | map => cases h
    | _ =>
      simp only [parseTop]
      exact hone
  | @list p xs ys _ hlength _ ih =>
    subst hp
    have hall := List.forall₂_iff_get (R := fun v w => Simulates Alike (parseTop v) (parseTop w)).mpr
      ⟨hlength, fun i hx hy => ih i hx hy rfl⟩
    rw [parseTop, parseTop]
    refine (parseTops_alike hall).bind fun branches branches' hbranches => ?_
    exact simulates_pure ⟨branches', rfl, hbranches⟩
  | @map p es fs _ hkeys h _ =>
    subst hp
    exact parseTop_map_alike ⟨hkeys, h⟩

/-- What is read from one node is read from another that differs in the order of keys. -/
theorem parse_alike (h : Reordered .type v w) (hs : parse v = .ok s) :
    ∃ t, parse w = .ok t ∧ s.Alike t := (parseTop_alike h rfl).run' hs

/-! ## Reading once more -/

theorem unmarked_reordered (h : Reordered .type v w) :
    Reordered .type (unmarked v) (unmarked w) := by
  cases h with
  | atom _ _ hatom =>
    cases v with
    | map => cases hatom
    | _ => exact .atom _ _ hatom
  | list hp hlength h => exact .list hp hlength h
  | @map _ es fs hp hkeys h =>
    let marked (k : Value) : Bool := k.isText checkedKey || k.isText namedKey
    have htype : field? (es.filter fun e => !marked e.1) "type" = field? es "type" :=
      EntriesReordered.field?_filterKeys (fun k => !marked k) es "type"
    have hunder : Place.type.under (es.filter fun e => !marked e.1) = Place.type.under es := by
      funext key
      rw [Place.under, Place.under, htype]
    have hentries : EntriesReordered (Place.type.under es) es fs := ⟨hkeys, h⟩
    refine EntriesReordered.map hp ?_
    rw [hunder]
    exact hentries.filter fun k => !marked k

mutual

theorem reread_alike : ∀ {s t : Schema}, s.Alike t → Simulates Alike (reread s) (reread t)
  | .record isError name fields a, t, h => by
    have hdefinitions := definitions_alike h
    have hst := h
    obtain ⟨fields', a', rfl, hfields, ha⟩ := h
    rw [reread, reread, hdefinitions]
    exact (know_alike (.refl _)).bind fun _ _ _ => simulates_pure hst
  | .union branches, _, h => by
    obtain ⟨branches', rfl, hbranches⟩ := h
    rw [reread, reread]
    refine (rereadAll_alike hbranches).bind fun branches branches' hbranches => ?_
    exact simulates_pure ⟨branches', rfl, hbranches⟩
  | .unchecked node, _, h => by
    obtain ⟨node', rfl, hnode⟩ := h
    rw [reread, reread]
    exact readsAlike (unmarked_reordered hnode) _ _ _ .none
  | .primitive _, _, h | .named _, _, h => by
    rw [h]
    simp only [reread]
    exact parseOne_alike (.atom _ _ rfl)
  | .annotated p a, _, h => by
    have hnode := toValue_alike h
    obtain ⟨a', rfl, -⟩ := h
    rw [reread, reread] <;> first | exact parseOne_alike hnode | nofun
  | .array s a, _, h => by
    have hnode := toValue_alike h
    obtain ⟨s', a', rfl, -⟩ := h
    simp only [reread]
    exact parseOne_alike hnode
  | .map s a, _, h => by
    have hnode := toValue_alike h
    obtain ⟨s', a', rfl, -⟩ := h
    simp only [reread]
    exact parseOne_alike hnode
  | .enum name symbols a, _, h => by
    have hnode := toValue_alike h
    obtain ⟨a', rfl, -⟩ := h
    simp only [reread]
    exact parseOne_alike hnode
  | .fixed name size a, _, h => by
    have hnode := toValue_alike h
    obtain ⟨a', rfl, -⟩ := h
    simp only [reread]
    exact parseOne_alike hnode

theorem rereadAll_alike : ∀ {branches branches' : List Schema}, BranchesAlike branches branches' →
    Simulates BranchesAlike (rereadAll branches) (rereadAll branches')
  | [], _, h => by
    rw [h, rereadAll]
    exact simulates_pure rfl
  | s :: rest, _, h => by
    obtain ⟨t, rest', rfl, hs, hrest⟩ := h
    rw [rereadAll, rereadAll]
    refine (reread_alike hs).bind fun s t hst => ?_
    refine (rereadAll_alike hrest).bind fun rest rest' hrest => ?_
    exact simulates_pure ⟨t, rest', rfl, hst, hrest⟩

end

theorem settle_alike {s' : Schema} (h : s.Alike t) (hs : s.settle = .ok s') :
    ∃ t', t.settle = .ok t' ∧ s'.Alike t' := (reread_alike h).run' hs

theorem fingerprint_alike {fingerprint : String} (h : s.Alike t)
    (hs : s.fingerprint = .ok fingerprint) : t.fingerprint = .ok fingerprint := by
  obtain ⟨form, hform, hs⟩ := Except.of_bind_ok hs
  obtain ⟨s', hs', hform⟩ := Except.of_bind_ok hform
  obtain ⟨t', ht', hst'⟩ := settle_alike h hs'
  cases hform
  cases hs
  rw [fingerprint, canonicalForm, ht', form_alike hst']
  rfl

theorem isRecord_alike (h : s.Alike t) : s.isRecord = t.isRecord := by
  cases s with
  | primitive | named => rw [h]
  | annotated => obtain ⟨a', rfl, -⟩ := h; rfl
  | array | map => obtain ⟨s', a', rfl, -⟩ := h; rfl
  | enum | fixed => obtain ⟨a', rfl, -⟩ := h; rfl
  | record => obtain ⟨fields', a', rfl, -⟩ := h; rfl
  | union => obtain ⟨branches', rfl, -⟩ := h; rfl
  | unchecked node =>
    obtain ⟨node', rfl, hnode⟩ := h
    cases hnode with
    | atom => rfl
    | list => rfl
    | @map _ es fs _ hkeys h =>
      have htype := (EntriesReordered.mk hkeys h).field?_rel "type"
      rw [isRecord, isRecord]
      generalize field? es "type" = x, field? fs "type" = x' at htype ⊢
      cases htype with
      | none => rfl
      | some htype =>
        dsimp only
        rw [htype.isText_eq, htype.isText_eq]

end Schema

end Avro

namespace PlainValue

/-- The records that two types are wrapped into differ no more than the types. -/
theorem wrappingNode_reordered {v w : Value} (h : Avro.Reordered .type v w) (fieldName : String) :
    Avro.Reordered .type (wrappingNode v fieldName) (wrappingNode w fieldName) := by
  have hfield : Avro.Reordered .field
      (Value.ofFields [("name", .str fieldName), ("type", v)])
      (Value.ofFields [("name", .str fieldName), ("type", w)]) :=
    Avro.EntriesReordered.map (by decide)
      ((Avro.Schema.entry_atom "name" rfl).append (.entry "type" h))
  have hfields : Avro.Reordered .fields
      (.list [Value.ofFields [("name", .str fieldName), ("type", v)]])
      (.list [Value.ofFields [("name", .str fieldName), ("type", w)]]) :=
    .cons (by decide) hfield (.nil (by decide))
  exact Avro.Schema.node_reordered "record" .nil
    ((Avro.Schema.entry_atom "name" rfl).append (.entry "fields" hfields))

end PlainValue

namespace Store

theorem Writer.fingerprintOf_alike {s t : Avro.Schema} {fingerprint : String} (h : s.Alike t)
    (hs : fingerprintOf s = .ok fingerprint) : fingerprintOf t = .ok fingerprint := by
  obtain ⟨s', hs', hs⟩ := Except.of_bind_ok hs
  obtain ⟨t', ht', hst'⟩ := Avro.Schema.settle_alike h (Except.ok_of_mapError hs')
  rw [fingerprintOf, ht']
  show Except.mapError Failure.schema t'.fingerprint = _
  rw [Avro.Schema.fingerprint_alike hst' (Except.ok_of_mapError hs)]
  rfl

end Store
end StreamTable
