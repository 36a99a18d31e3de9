/-
Sound nodes: those that were read.  A sound node can be stripped of nulls, and what is left breaks
the reader off no more than the node did.
-/
import StreamTable.Proofs.Avro.Faults
import StreamTable.Proofs.Avro.Stripping

namespace StreamTable
namespace Avro

open Value

namespace Schema

/-! ## What was read -/

/-- Fields that can be stripped of nulls: objects with a type, or none at all. -/
def SoundFields : Value → Prop
  | .list xs => ∀ x ∈ xs, ∃ es, x = .map es ∧ (∀ key, es.countP (fun e => e.1.isText key) ≤ 1) ∧
    (Value.field? es "type").isSome
  | v => NullFree.looseFields v = .ok (.list [])

/-- An object of a kind has what is stripped of nulls. -/
def SoundOfKind (es : List (Value × Value)) : String → Prop
  | "array" => (Value.field? es "items").isSome
  | "map" => (Value.field? es "values").isSome
  | "record" => ∀ v, Value.field? es "fields" = some v → SoundFields v
  | "error" => ∀ v, Value.field? es "fields" = some v → SoundFields v
  | _ => True

/-- What is known of an object that was read. -/
structure SoundEntries (es : List (Value × Value)) : Prop extends TameEntries es where
  once : ∀ key, es.countP (fun e => e.1.isText key) ≤ 1
  kind : ∃ kind, Value.field? es "type" = some (.str kind) ∧ SoundOfKind es kind

/-- What is known of a node that was read, whatever stands inside it. -/
def Sound : Value → Prop
  | .map es => SoundEntries es
  | _ => True

theorem Sound.tame {node : Value} (h : Sound node) : Tame node := by
  cases node with
  | map es => exact SoundEntries.toTameEntries h
  | _ => exact trivial

/-- A node is read, in some namespace and with some default. -/
def IsRead (node : Value) : Prop :=
  ∃ around default? s, Yields (parseNode node (.within around) default?) s

theorem of_fullNameOf {es : List (Value × Value)} {around : Value} {inner : Scope} {name : String}
    (h : fullNameOf es (.within around) = .ok (inner, name)) :
    ∃ ns, inner = .within ns ∧ nameWithin es around = .ok (ns, name) := by
  obtain ⟨⟨ns, name'⟩, hname, h⟩ := Except.of_bind_ok h
  cases h
  exact ⟨ns, rfl, hname⟩

theorem parseBranches_isRead {xs : List Value} {around : Value} {branches : List Schema}
    (h : Yields (parseBranches xs (.within around)) branches) : ∀ x ∈ xs, IsRead x := by
  induction xs generalizing branches with
  | nil => exact List.forall_mem_nil _
  | cons x xs ih =>
    rw [parseBranches] at h
    obtain ⟨s, hs, h⟩ := yields_bind h
    obtain ⟨rest, hrest, -⟩ := yields_bind h
    intro y hy
    obtain rfl | hy := List.mem_cons.mp hy
    · exact ⟨around, none, s, hs⟩
    · exact ih hrest y hy

theorem parseField_isRead {x ns : Value} {f : Field} (h : Yields (parseField x (.within ns)) f) :
    ∃ es t, x = .map es ∧ Value.field? es "type" = some t ∧ IsRead t := by
  cases x with
  | map es =>
    rw [parseField] at h
    split at h
    · exact absurd h not_yields_throw
    · split at h
      · exact absurd h not_yields_throw
      · rename_i type htype
        obtain ⟨t, ht, hchild⟩ := of_find?_parseChildren htype
        have hschema {f : Schema → Reading Field} {g : Field}
            (h : Yields (type.2.schema (.within ns) (Value.field? es "default") >>= f) g) :
            IsRead t := by
          rw [hchild] at h
          obtain ⟨s, hs, -⟩ := yields_bind h
          exact ⟨ns, _, s, hs⟩
        refine ⟨es, t, rfl, ht, ?_⟩
        dsimp only at h
        split at h
        · obtain ⟨-, -, h⟩ := yields_bind h
          exact hschema h
        · exact hschema h
  | _ =>
    simp only [parseField] at h
    exact absurd h not_yields_throw

theorem parseFieldList_isRead {xs : List Value} {ns : Value} {fields : List Field}
    (h : Yields (parseFieldList xs (.within ns)) fields) :
    ∀ x ∈ xs, ∃ es t, x = .map es ∧ Value.field? es "type" = some t ∧ IsRead t := by
  induction xs generalizing fields with
  | nil => exact List.forall_mem_nil _
  | cons x xs ih =>
    rw [parseFieldList] at h
    obtain ⟨f, hf, h⟩ := yields_bind h
    obtain ⟨rest, hrest, -⟩ := yields_bind h
    intro y hy
    obtain rfl | hy := List.mem_cons.mp hy
    · exact parseField_isRead hf
    · exact ih hrest y hy

theorem eq_nil_of_refuseFields {xs : List Value} {fields : List Field}
    (h : Yields (refuseFields xs) fields) : xs = [] := by
  cases xs with
  | nil => rfl
  | cons x xs => exact absurd h not_yields_throw

theorem parseFields_sound {v ns : Value} {fields : List Field} (hv : v.Keyed)
    (h : Yields (parseFields v (.within ns)) fields) :
    SoundFields v ∧ ∀ t ∈ (fieldNodes (some v)).filterMap fieldType?, IsRead t := by
  cases v with
  | list xs =>
    rw [parseFields] at h
    have hread := parseFieldList_isRead h
    refine ⟨fun x hx => ?_, fun t ht => ?_⟩
    · obtain ⟨es, t, rfl, ht, -⟩ := hread x hx
      exact ⟨es, rfl, (hv.items _ hx).entries.once, by rw [ht]; rfl⟩
    · obtain ⟨x, hx, ht⟩ := List.mem_filterMap.mp ht
      obtain ⟨es, t', rfl, ht', hread⟩ := hread x hx
      cases ht.symm.trans ht'
      exact hread
  | tuple xs => exact absurd hv.regular Value.Regular.not_tuple
  | map es =>
    rw [parseFields] at h
    obtain rfl := List.map_eq_nil_iff.mp (eq_nil_of_refuseFields h)
    exact ⟨rfl, List.forall_mem_nil _⟩
  | str t =>
    rw [parseFields] at h
    have ht : t = "" := by simpa using eq_nil_of_refuseFields h
    rw [ht]
    exact ⟨rfl, List.forall_mem_nil _⟩
  | set xs =>
    rw [parseFields] at h
    obtain rfl := eq_nil_of_refuseFields h
    exact ⟨rfl, List.forall_mem_nil _⟩
  | bytes b | bytearray b =>
    rw [parseFields] at h
    obtain rfl := List.map_eq_nil_iff.mp (eq_nil_of_refuseFields h)
    exact ⟨rfl, List.forall_mem_nil _⟩
  | _ =>
    simp only [parseFields] at h
    exact absurd h not_yields_throw

/-- What was read of the fields of a record, which may have none. -/
theorem recordFields_sound {es : List (Value × Value)} {ns : Value} {s : Schema}
    {f : List Field → Reading Schema} (hes : KeyedEntries es)
    (h : Yields (match (parseChildren es).find? fun e => e.1.isText "fields" with
      | some e => e.2.fields (.within ns) >>= f
      | none => noFields (.within ns) >>= f) s) :
    (∀ v, Value.field? es "fields" = some v → SoundFields v) ∧
      ∀ x ∈ (fieldNodes (Value.field? es "fields")).filterMap fieldType?, IsRead x := by
  split at h
  · rename_i e he
    obtain ⟨v, hv, hchild⟩ := of_find?_parseChildren he
    rw [hchild] at h
    obtain ⟨fields, hfields, -⟩ := yields_bind h
    obtain ⟨hsound, hread⟩ := parseFields_sound (hes.field? hv) hfields
    rw [hv]
    exact ⟨fun w hw => Option.some.inj hw ▸ hsound, hread⟩
  · rename_i hnone
    have hv : Value.field? es "fields" = none := by
      rw [find?_parseChildren] at hnone
      rw [field?_eq_find?, Option.map_eq_none_iff.mp hnone]
      rfl
    rw [hv]
    exact ⟨fun v hv => (by cases hv), List.forall_mem_nil _⟩

/-- What was read of an object, by its kind. -/
theorem parseNode_map_sound {es : List (Value × Value)} {around : Value} {default? : Option Value}
    {s : Schema} (hes : KeyedEntries es)
    (h : Yields (parseNode (.map es) (.within around) default?) s) :
    ∃ kind, Value.field? es "type" = some (.str kind) ∧ checkAttributes es (.str kind) = .ok () ∧
      SoundOfKind es kind ∧
      (isNamedKind kind = true → holdsDot (Value.field? es "name") = false) ∧
      ∀ x ∈ nodesOfKind es kind, IsRead x := by
  rw [parseNode] at h
  obtain ⟨type, htype, h⟩ := yields_bind h
  have htype := required_eq_ok (yields_lift htype)
  obtain ⟨hdecimal, h⟩ := yields_check h
  have hcheck : checkAttributes es type = .ok () := by
    unfold checkAttributes
    split
    · rename_i hc
      exact yields_lift (hdecimal hc)
    · rfl
  dsimp only at h
  split at h
  -- arrays and maps
  · obtain ⟨c, hc, h⟩ := yields_bind h
    obtain ⟨items, hitems, -⟩ := yields_bind h
    obtain ⟨v, hv, rfl⟩ := of_child (yields_lift hc)
    refine ⟨"array", htype, hcheck, Option.isSome_iff_exists.mpr ⟨v, hv⟩,
      fun hnamed => (by cases hnamed), fun x hx => ?_⟩
    cases hv.symm.trans (Option.mem_toList.mp hx)
    exact ⟨around, none, items, hitems⟩
  · obtain ⟨c, hc, h⟩ := yields_bind h
    obtain ⟨values, hvalues, -⟩ := yields_bind h
    obtain ⟨v, hv, rfl⟩ := of_child (yields_lift hc)
    refine ⟨"map", htype, hcheck, Option.isSome_iff_exists.mpr ⟨v, hv⟩,
      fun hnamed => (by cases hnamed), fun x hx => ?_⟩
    cases hv.symm.trans (Option.mem_toList.mp hx)
    exact ⟨around, none, values, hvalues⟩
  -- enums and fixed types
  · obtain ⟨⟨inner, name⟩, hname, -⟩ := yields_bind h
    obtain ⟨ns, -, hname⟩ := of_fullNameOf (yields_lift hname)
    exact ⟨"enum", htype, hcheck, trivial, fun _ => holdsDot_of_nameWithin hname,
      List.forall_mem_nil _⟩
  · obtain ⟨⟨inner, name⟩, hname, -⟩ := yields_bind h
    obtain ⟨ns, -, hname⟩ := of_fullNameOf (yields_lift hname)
    exact ⟨"fixed", htype, hcheck, trivial, fun _ => holdsDot_of_nameWithin hname,
      List.forall_mem_nil _⟩
  -- records, then primitive types given as objects
  · rename_i t _ _ _ _ _ _
    split at h
    · rename_i ht
      obtain ⟨-, hnodes⟩ := nodesOfKind_record es ht
      obtain ⟨⟨inner, name⟩, hname, h⟩ := yields_bind h
      obtain ⟨ns, rfl, hwithin⟩ := of_fullNameOf (yields_lift hname)
      obtain ⟨-, -, h⟩ := yields_bind h
      have hfields := recordFields_sound hes h
      refine ⟨t, htype, hcheck, ?_, fun _ => holdsDot_of_nameWithin hwithin, ?_⟩
      · obtain rfl | rfl : t = "record" ∨ t = "error" := by simpa using ht
        · exact hfields.1
        · exact hfields.1
      · rw [hnodes]
        exact hfields.2
    · split at h
      · rename_i p hp
        rw [ofName?_eq_some hp] at htype hcheck
        refine ⟨p.name, htype, hcheck, ?_, fun hnamed => ?_, fun x hx => ?_⟩
        · cases p <;> exact trivial
        · cases p <;> cases hnamed
        · cases p <;> cases hx
      · exact absurd h not_yields_throw
  · exact absurd h not_yields_throw

/-- What a node that was read says of itself, and that the nodes inside it were read. -/
theorem parseNode_sound {node : Value} (hnode : node.Keyed) (h : IsRead node) :
    Sound node ∧ ∀ x ∈ inner node, IsRead x := by
  obtain ⟨around, default?, s, h⟩ := h
  cases node with
  | list xs =>
    rw [parseNode] at h
    obtain ⟨branches, hbranches, -⟩ := yields_bind h
    exact ⟨trivial, parseBranches_isRead hbranches⟩
  | map es =>
    obtain ⟨kind, htype, hcheck, hsound, hname, hread⟩ := parseNode_map_sound hnode.entries h
    rw [inner_map htype]
    refine ⟨⟨⟨fun {kind'} htype' hnamed => ?_, fun {type} htype' => ?_⟩, hnode.entries.once,
      kind, htype, hsound⟩, hread⟩
    · cases htype.symm.trans htype'
      exact hname hnamed
    · cases htype.symm.trans htype'
      rw [hcheck]
      intro h
      cases h
  | _ => exact ⟨trivial, List.forall_mem_nil _⟩

/-- All of a node that was read is sound. -/
theorem throughout_sound {node : Value} (hnode : node.Keyed) (h : IsRead node) :
    Throughout Sound node := by
  induction node using inner_induction with
  | h node ih =>
    obtain ⟨hsound, hinner⟩ := parseNode_sound hnode h
    exact .intro hsound fun x hx => ih x hx (inner_keyed hnode hx) (hinner x hx)

end Schema

/-! ## Stripping -/

namespace NullFree

section Lists

variable {xs ys : List Value}

theorem stripBranches_ok (h : ∀ x ∈ xs, ∃ y, strip x = .ok y) : ∃ ys, stripBranches xs = .ok ys := by
  induction xs with
  | nil => exact ⟨[], by rw [stripBranches]; rfl⟩
  | cons x xs ih =>
    obtain ⟨ys, hys⟩ := ih fun x' hx' => h x' (List.mem_cons_of_mem x hx')
    obtain ⟨y, hy⟩ := h x List.mem_cons_self
    rw [stripBranches, hys, hy]
    split
    · exact ⟨ys, rfl⟩
    · exact ⟨y :: ys, rfl⟩

/-- What is left of branches are branches, stripped. -/
theorem of_mem_stripBranches (h : stripBranches xs = .ok ys) :
    ∀ y ∈ ys, ∃ x ∈ xs, strip x = .ok y := by
  induction xs generalizing ys with
  | nil =>
    rw [stripBranches] at h
    cases h
    exact List.forall_mem_nil _
  | cons x xs ih =>
    rw [stripBranches] at h
    have hrest {ys : List Value} (h : stripBranches xs = .ok ys) :
        ∀ y ∈ ys, ∃ x' ∈ x :: xs, strip x' = .ok y := by
      intro y hy
      obtain ⟨x', hx', hstrip⟩ := ih h y hy
      exact ⟨x', List.mem_cons_of_mem x hx', hstrip⟩
    split at h
    · exact hrest h
    · obtain ⟨y, hy, h⟩ := Except.of_bind_ok h
      obtain ⟨ys', hys', h⟩ := Except.of_bind_ok h
      cases h
      intro z hz
      obtain rfl | hz := List.mem_cons.mp hz
      · exact ⟨x, List.mem_cons_self, hy⟩
      · exact hrest hys' z hz

end Lists

/-- Entries can be altered under a key that they have at most once. -/
theorem alterEntry_ok {f : Value → Except DataFault Value} {key : String}
    {es : List (Value × Value)} (honce : es.countP (fun e => e.1.isText key) ≤ 1)
    (h : ∀ v, Value.field? es key = some v → ∃ v', f v = .ok v') :
    ∃ es', alterEntry f key es = .ok es' := by
  induction es with
  | nil => exact ⟨[], rfl⟩
  | cons e es ih =>
    obtain ⟨k, v⟩ := e
    by_cases hk : k.isText key = true
    · obtain ⟨v', hv'⟩ := h v (by rw [field?_cons, if_pos hk])
      have hnone : ∀ e ∈ es, e.1.isText key = false := by
        rw [List.countP_cons, if_pos hk] at honce
        have hzero := List.countP_eq_zero.mp (Nat.le_zero.mp (Nat.le_of_succ_le_succ honce))
        exact fun e he => Bool.eq_false_iff.mpr (hzero e he)
      have hes := alterEntry_append (f := f) hnone (show alterEntry f key [] = .ok [] from rfl)
      rw [List.append_nil] at hes
      exact ⟨_, alterEntry_cons.mpr ⟨v', es, (if_pos hk).trans hv', hes, rfl⟩⟩
    · rw [List.countP_cons, if_neg hk] at honce
      obtain ⟨es', hes'⟩ := ih honce fun v hv => h v (by rw [field?_cons, if_neg hk, hv])
      exact ⟨_, alterEntry_cons.mpr ⟨v, es', if_neg hk, hes', rfl⟩⟩

end NullFree

namespace Schema

section Fields

open NullFree

variable {xs ys : List Value}

theorem stripFields_ok (hxs : SoundFields (.list xs))
    (h : ∀ t ∈ xs.filterMap fieldType?, ∃ t', strip t = .ok t') : ∃ ys, stripFields xs = .ok ys := by
  induction xs with
  | nil => exact ⟨[], by rw [stripFields]; rfl⟩
  | cons x xs ih =>
    obtain ⟨es, rfl, honce, htype⟩ := hxs x List.mem_cons_self
    have hes : ∃ es', stripEntry "type" es = .ok es' := by
      rw [stripEntry_eq]
      refine alterEntry_ok (honce "type") fun t ht => h t ?_
      exact List.mem_filterMap.mpr ⟨.map es, List.mem_cons_self, ht⟩
    obtain ⟨es', hes'⟩ := hes
    obtain ⟨ys, hys⟩ := ih (fun x hx => hxs x (List.mem_cons_of_mem _ hx)) fun t ht => by
      obtain ⟨x, hx, ht⟩ := List.mem_filterMap.mp ht
      exact h t (List.mem_filterMap.mpr ⟨x, List.mem_cons_of_mem _ hx, ht⟩)
    rw [stripFields, requireKey, if_pos htype, hes', hys]
    exact ⟨_, rfl⟩

/-- The types of the fields that are left are those before, stripped. -/
theorem of_mem_stripFields (h : stripFields xs = .ok ys) :
    ∀ t' ∈ ys.filterMap fieldType?, ∃ t ∈ xs.filterMap fieldType?, strip t = .ok t' := by
  induction xs generalizing ys with
  | nil =>
    rw [stripFields] at h
    cases h
    exact List.forall_mem_nil _
  | cons x xs ih =>
    cases x with
    | map es =>
      obtain ⟨-, -, h⟩ := Except.of_bind_ok h
      obtain ⟨es', hes', h⟩ := Except.of_bind_ok h
      obtain ⟨ys', hys', h⟩ := Except.of_bind_ok h
      cases h
      rw [stripEntry_eq] at hes'
      intro t' ht'
      obtain ⟨y, hy, ht'⟩ := List.mem_filterMap.mp ht'
      obtain rfl | hy := List.mem_cons.mp hy
      · have haltered := alterEntry_altered hes'
        rw [fieldType?, field?_dropNullDefault es' (by decide)] at ht'
        cases ht : Value.field? es "type" with
        | none =>
          rw [haltered.field?_none ht] at ht'
          cases ht'
        | some t =>
          obtain ⟨u, hu, hstrip⟩ := haltered.field?_some ht
          cases hu.symm.trans ht'
          exact ⟨t, List.mem_filterMap.mpr ⟨_, List.mem_cons_self, ht⟩, hstrip⟩
      · obtain ⟨t, ht, hstrip⟩ := ih hys' t' (List.mem_filterMap.mpr ⟨y, hy, ht'⟩)
        obtain ⟨x, hx, ht⟩ := List.mem_filterMap.mp ht
        exact ⟨t, List.mem_filterMap.mpr ⟨x, List.mem_cons_of_mem _ hx, ht⟩, hstrip⟩
    | _ =>
      simp only [stripFields] at h
      cases h

end Fields

/-! ### What is left -/

section Left

variable {es es' : List (Value × Value)} {key : String}

theorem TameEntries.of_sameBut (h : TameEntries es) (hs : SameBut key es es')
    (hkey : key ∈ ["items", "values", "fields"]) : TameEntries es' := by
  have hother : ∀ key ∈ ["items", "values", "fields"],
      key ≠ "type" ∧ key ≠ "name" ∧ key ≠ "size" ∧ key ≠ "doc" ∧ key ∈ reservedKeys := by decide
  obtain ⟨htype, hname, hsize, hdoc, hreserved⟩ := hother key hkey
  refine ⟨fun {kind} hkind hnamed => ?_, fun {type} ht => ?_⟩
  · rw [hs.field?_eq (Ne.symm htype)] at hkind
    rw [hs.field?_eq (Ne.symm hname)]
    exact h.name hkind hnamed
  · rw [hs.field?_eq (Ne.symm htype)] at ht
    rw [checkAttributes, hs.attributesOf_eq hreserved hdoc, required, hs.field?_eq (Ne.symm hsize)]
    exact h.size ht

/-- A value under a key is stripped, and nothing else of the object changes. -/
theorem SoundEntries.strip_under (h : SoundEntries es) (hkey : key ∈ ["items", "values", "fields"])
    {v v' : Value} (hv : Value.field? es key = some v) (hstrip : NullFree.strip v = .ok v') :
    ∃ es', NullFree.alterEntry NullFree.strip key es = .ok es' ∧ TameEntries es' ∧
      Value.field? es' "type" = Value.field? es "type" ∧ Value.field? es' key = some v' := by
  obtain ⟨es', hes'⟩ := NullFree.alterEntry_ok (h.once key) fun w hw => by
    cases hv.symm.trans hw
    exact ⟨v', hstrip⟩
  have haltered := NullFree.alterEntry_altered hes'
  obtain ⟨w, hw, hstrip'⟩ := haltered.field?_some hv
  cases hstrip.symm.trans hstrip'
  have htype : ∀ key ∈ ["items", "values", "fields"], "type" ≠ key := by decide
  exact ⟨es', hes', h.toTameEntries.of_sameBut haltered.sameBut hkey,
    haltered.sameBut.field?_eq (htype key hkey), hw⟩

end Left

theorem throughout_tame_collapse {ys : List Value} (h : ∀ y ∈ ys, Throughout Tame y) :
    Throughout Tame (NullFree.collapse ys) := by
  match ys with
  | [] => exact .intro trivial (List.forall_mem_nil _)
  | [y] => exact h y List.mem_cons_self
  | y :: z :: ys => exact .intro trivial h

/-- An object of a kind that holds one node, under a key. -/
theorem strip_single_sound {es : List (Value × Value)} {kind key : String} (h : SoundEntries es)
    (htype : Value.field? es "type" = some (.str kind))
    (hnodes : ∀ es, nodesOfKind es kind = (Value.field? es key).toList)
    (hkey : key ∈ ["items", "values", "fields"]) (hsome : (Value.field? es key).isSome)
    (hstrip : NullFree.strip (.map es) = (do
      NullFree.requireKey es key
      let es ← NullFree.alterEntry NullFree.strip key es
      pure (.map es)))
    (ih : ∀ x ∈ inner (.map es), ∃ x', NullFree.strip x = .ok x' ∧ Throughout Tame x') :
    ∃ node', NullFree.strip (.map es) = .ok node' ∧ Throughout Tame node' := by
  obtain ⟨v, hv⟩ := Option.isSome_iff_exists.mp hsome
  rw [inner_map htype, hnodes] at ih
  obtain ⟨v', hv', htame⟩ := ih v (Option.mem_toList.mpr hv)
  obtain ⟨es', hes', htame', htype', hv''⟩ := h.strip_under hkey hv hv'
  refine ⟨.map es', ?_, .intro htame' fun x hx => ?_⟩
  · rw [hstrip, NullFree.requireKey, if_pos hsome, hes']
    rfl
  · rw [inner_map (htype'.trans htype), hnodes] at hx
    cases hv''.symm.trans (Option.mem_toList.mp hx)
    exact htame

theorem stripFieldsNode_ok {v : Value} (hv : SoundFields v)
    (h : ∀ t ∈ (fieldNodes (some v)).filterMap fieldType?, ∃ t', NullFree.strip t = .ok t') :
    ∃ v', NullFree.stripFieldsNode v = .ok v' := by
  cases v with
  | list xs =>
    obtain ⟨ys, hys⟩ := stripFields_ok hv h
    exact ⟨.list ys, by rw [NullFree.stripFieldsNode, hys]; rfl⟩
  | _ => exact ⟨.list [], hv⟩

theorem strip_record_sound {es : List (Value × Value)} (h : SoundEntries es) (isError : Bool)
    (htype : Value.field? es "type" = some (.str (if isError then "error" else "record")))
    (hfields : ∀ v, Value.field? es "fields" = some v → SoundFields v)
    (ih : ∀ x ∈ inner (.map es), ∃ x', NullFree.strip x = .ok x' ∧ Throughout Tame x') :
    ∃ node', NullFree.strip (.map es) = .ok node' ∧ Throughout Tame node' := by
  have hnodes (es : List (Value × Value)) :
      nodesOfKind es (if isError then "error" else "record") =
        (fieldNodes (Value.field? es "fields")).filterMap fieldType? := by
    cases isError <;> rfl
  rw [inner_map htype, hnodes] at ih
  obtain ⟨es', hes'⟩ := NullFree.alterEntry_ok (f := NullFree.stripFieldsNode) (h.once "fields")
    fun v hv => by
      rw [hv] at ih
      exact stripFieldsNode_ok (hfields v hv) fun t ht => (ih t ht).imp fun t' ht' => ht'.1
  obtain ⟨hsame, hstripped⟩ := NullFree.withFields_stripped hes'
  refine ⟨.map (NullFree.withFields es es'), ?_,
    .intro (h.toTameEntries.of_sameBut hsame (by decide)) fun t' ht' => ?_⟩
  · rw [NullFree.strip_record htype, hes']
    rfl
  · rw [inner_map ((hsame.field?_eq (by decide)).trans htype), hnodes] at ht'
    obtain ⟨t, ht, hstrip⟩ := of_mem_stripFields hstripped t' ht'
    obtain ⟨u, hu, htame⟩ := ih t ht
    cases hstrip.symm.trans hu
    exact htame

/-- A sound node can be stripped of nulls, and what is left does not break the reader off. -/
theorem strip_sound {node : Value} (h : Throughout Sound node) :
    ∃ node', NullFree.strip node = .ok node' ∧ Throughout Tame node' := by
  induction h with
  | @intro node here inside ih =>
    have htame : Throughout Tame node := (Throughout.intro here inside).mono fun _ => Sound.tame
    cases node with
    | list xs =>
      have hbranches : ∀ x ∈ xs, ∃ y, NullFree.strip x = .ok y := fun x hx =>
        (ih x hx).imp fun y hy => hy.1
      obtain ⟨ys, hys⟩ := NullFree.stripBranches_ok hbranches
      refine ⟨NullFree.collapse ys, by rw [NullFree.strip, hys]; rfl, ?_⟩
      refine throughout_tame_collapse fun y hy => ?_
      obtain ⟨x, hx, hstrip⟩ := NullFree.of_mem_stripBranches hys y hy
      obtain ⟨y', hy', htame⟩ := ih x hx
      cases hstrip.symm.trans hy'
      exact htame
    | map es =>
      have hes : SoundEntries es := here
      obtain ⟨kind, htype, hkind⟩ := hes.kind
      unfold SoundOfKind at hkind
      split at hkind
      · exact strip_single_sound hes htype (fun _ => rfl) (by decide) hkind
          (NullFree.strip_array htype) ih
      · exact strip_single_sound hes htype (fun _ => rfl) (by decide) hkind
          (NullFree.strip_mapOf htype) ih
      · exact strip_record_sound hes false htype hkind ih
      · exact strip_record_sound hes true htype hkind ih
      · rename_i harray hmap hrecord herror
        have hother : kind ∉ ["record", "error", "array", "map"] := by
          simp only [List.mem_cons, List.not_mem_nil, or_false, not_or]
          exact ⟨hrecord, herror, harray, hmap⟩
        exact ⟨_, NullFree.strip_other htype hother, htame⟩
    | _ => exact ⟨_, by rw [NullFree.strip.eq_def]; rfl, htame⟩

/-! ## Nodes at the top

A list at the top holds schemas of their own, each of which may be marked as checked. -/

/-- What holds of the nodes that a node at the top is, or is a list of. -/
inductive AtTop (P : Value → Prop) : Value → Prop where
  | list {xs : List Value} (h : ∀ x ∈ xs, AtTop P x) : AtTop P (.list xs)
  | single {node : Value} (hlist : isList node = false) (h : P node) : AtTop P node

/-- Whether a node is marked as checked, and brings names along. -/
def isMarked : Value → Bool
  | .map es => (Value.field? es checkedKey).isSome && (Value.field? es namedKey).isSome
  | _ => false

/-- Whether a node is taken as it is. -/
def isTaken : Value → Bool
  | .map es => isTakenAsIs es
  | _ => false

theorem AtTop.mono {P Q : Value → Prop} {node : Value} (hPQ : ∀ v, P v → Q v) (h : AtTop P node) :
    AtTop Q node := by
  induction h with
  | list _ ih => exact .list ih
  | single hlist h => exact .single hlist (hPQ _ h)

theorem AtTop.and {P Q : Value → Prop} {node : Value} (hP : AtTop P node) (hQ : AtTop Q node) :
    AtTop (fun v => P v ∧ Q v) node := by
  induction hP with
  | list _ ih =>
    cases hQ with
    | list hQ => exact .list fun x hx => ih x hx (hQ x hx)
    | single hlist _ => cases hlist
  | single hlist hP =>
    cases hQ with
    | list _ => cases hlist
    | single _ hQ => exact .single hlist ⟨hP, hQ⟩

section Single

variable {node : Value}

theorem parseTop_unmarked (hlist : isList node = false) (h : isMarked node = false) :
    parseTop node = parseOne node := by
  cases node with
  | list xs => cases hlist
  | map es =>
    rw [isMarked] at h
    rw [parseTop]
    cases hchecked : Value.field? es checkedKey with
    | none => rfl
    | some mark =>
      rw [hchecked] at h
      cases hnamed : Value.field? es namedKey with
      | none => rfl
      | some table =>
        rw [hnamed] at h
        cases h
  | _ =>
    rw [parseTop]
    all_goals
      intro _ h
      cases h

/-- A node that is marked is taken as it is, or it breaks the reader off. -/
theorem isTaken_of_parseTop {s : Schema} (hmarked : isMarked node = true)
    (h : Yields (parseTop node) s) : isTaken node = true := by
  cases node with
  | map es =>
    obtain ⟨hchecked, hnamed⟩ := Bool.and_eq_true_iff.mp hmarked
    obtain ⟨table, htable⟩ := Option.isSome_iff_exists.mp hnamed
    rw [parseTop, if_pos hchecked, htable] at h
    rw [isTaken, isTakenAsIs, hchecked, htable]
    cases table with
    | map table => rfl
    | _ => exact absurd h not_yields_throw
  | _ => cases hmarked

theorem parseTop_taken_reports (h : isTaken node = true) : Reports (parseTop node) := by
  cases node with
  | map es =>
    obtain ⟨hchecked, hnamed⟩ := Bool.and_eq_true_iff.mp h
    cases htable : Value.field? es namedKey with
    | none =>
      rw [htable] at hnamed
      cases hnamed
    | some table =>
      rw [parseTop, if_pos hchecked, htable]
      cases table with
      | map table => exact failsOnly_bind (failsOnly_modify _) fun _ _ => failsOnly_pure _
      | _ =>
        rw [htable] at hnamed
        cases hnamed
  | _ => cases h

theorem isMarked_of_isTaken (h : isTaken node = true) : isMarked node = true := by
  cases node with
  | map es =>
    obtain ⟨hchecked, hnamed⟩ := Bool.and_eq_true_iff.mp h
    cases htable : Value.field? es namedKey with
    | none =>
      rw [htable] at hnamed
      cases hnamed
    | some table => rw [isMarked, hchecked, htable, Option.isSome_some, Bool.and_true]
  | _ => cases h

theorem parseOne_isRead {s : Schema} (h : Yields (parseOne node) s) : IsRead node := by
  obtain ⟨-, -, h⟩ := yields_bind h
  exact ⟨_, _, s, h⟩

theorem parseOne_reports (h : Throughout Tame node) : Reports (parseOne node) :=
  failsOnly_bind (failsOnly_modify _) fun _ _ => parseNode_reports h _ _

end Single

/-- A node at the top that is read, and does not break the reader off. -/
def TameAlone (node : Value) : Prop := isMarked node = false ∧ Throughout Tame node

/-- A node at the top that is taken as it is, or read. -/
def SoundAlone (node : Value) : Prop :=
  isTaken node = true ∨ (isMarked node = false ∧ Throughout Sound node)

theorem parseTops_reports {xs : List Value} (h : ∀ x ∈ xs, Reports (parseTop x)) :
    Reports (parseTops xs) := by
  induction xs with
  | nil =>
    rw [parseTops]
    exact failsOnly_pure _
  | cons x xs ih =>
    rw [parseTops]
    refine failsOnly_bind (h x List.mem_cons_self) fun s _ => ?_
    exact failsOnly_bind (ih fun y hy => h y (List.mem_cons_of_mem x hy)) fun rest _ =>
      failsOnly_pure _

theorem parseTop_reports {node : Value}
    (h : AtTop (fun v => isTaken v = true ∨ TameAlone v) node) : Reports (parseTop node) := by
  induction h with
  | list _ ih =>
    rw [parseTop]
    exact failsOnly_bind (parseTops_reports ih) fun branches _ => failsOnly_pure _
  | single hlist h =>
    obtain h | ⟨hmarked, htame⟩ := h
    · exact parseTop_taken_reports h
    · rw [parseTop_unmarked hlist hmarked]
      exact parseOne_reports htame

theorem of_parseTops {xs : List Value} {branches : List Schema}
    (h : Yields (parseTops xs) branches) : ∀ x ∈ xs, ∃ s, Yields (parseTop x) s := by
  induction xs generalizing branches with
  | nil => exact List.forall_mem_nil _
  | cons x xs ih =>
    rw [parseTops] at h
    obtain ⟨s, hs, h⟩ := yields_bind h
    obtain ⟨rest, hrest, -⟩ := yields_bind h
    intro y hy
    obtain rfl | hy := List.mem_cons.mp hy
    · exact ⟨s, hs⟩
    · exact ih hrest y hy

/-- What was read at the top is sound. -/
theorem parseTop_sound {node : Value} (hnode : node.Keyed) {s : Schema}
    (h : Yields (parseTop node) s) : AtTop SoundAlone node := by
  induction node using inner_induction generalizing s with
  | h node ih =>
    cases hlist : isList node with
    | true =>
      cases node with
      | list xs =>
        rw [parseTop] at h
        obtain ⟨branches, hbranches, -⟩ := yields_bind h
        refine .list fun x hx => ?_
        obtain ⟨t, ht⟩ := of_parseTops hbranches x hx
        exact ih x hx (hnode.items x hx) ht
      | _ => cases hlist
    | false =>
      refine .single hlist ?_
      cases hmarked : isMarked node with
      | true => exact .inl (isTaken_of_parseTop hmarked h)
      | false =>
        rw [parseTop_unmarked hlist hmarked] at h
        exact .inr ⟨hmarked, throughout_sound hnode (parseOne_isRead h)⟩

/-! ### Stripping at the top -/

/-- Stripping an object changes what is under one key, and keeps the marks. -/
theorem strip_map_sameBut {es : List (Value × Value)} {node' : Value}
    (h : NullFree.strip (.map es) = .ok node') :
    ∃ key es', node' = .map es' ∧ SameBut key es es' ∧ key ≠ checkedKey ∧ key ≠ namedKey := by
  have hentry {key : String} (hkey : key ≠ checkedKey ∧ key ≠ namedKey)
      (h : (NullFree.stripEntry key es >>= fun es => pure (Value.map es)) = .ok node') :
      ∃ key es', node' = .map es' ∧ SameBut key es es' ∧ key ≠ checkedKey ∧ key ≠ namedKey := by
    obtain ⟨es', hes', h⟩ := Except.of_bind_ok h
    cases h
    rw [NullFree.stripEntry_eq] at hes'
    exact ⟨key, es', rfl, (NullFree.alterEntry_altered hes').sameBut, hkey⟩
  have hfields (h : (NullFree.stripFieldsEntry es >>= fun stripped =>
      pure (Value.map (NullFree.withFields es stripped))) = .ok node') :
      ∃ key es', node' = .map es' ∧ SameBut key es es' ∧ key ≠ checkedKey ∧ key ≠ namedKey := by
    obtain ⟨es', hes', h⟩ := Except.of_bind_ok h
    cases h
    rw [NullFree.stripFieldsEntry_eq] at hes'
    exact ⟨"fields", _, rfl, (NullFree.withFields_stripped hes').1, by decide, by decide⟩
  rw [NullFree.strip.eq_def] at h
  dsimp only at h
  split at h
  · exact hfields h
  · exact hfields h
  · obtain ⟨-, -, h⟩ := Except.of_bind_ok h
    exact hentry (by decide) h
  · obtain ⟨-, -, h⟩ := Except.of_bind_ok h
    exact hentry (by decide) h
  · exact hentry (by decide) h
  · exact hentry (by decide) h
  · cases h
    exact ⟨"type", es, rfl, rfl, by decide, by decide⟩

theorem strip_keeps {node node' : Value} (hlist : isList node = false)
    (h : NullFree.strip node = .ok node') :
    isList node' = false ∧ isMarked node' = isMarked node ∧ isTaken node' = isTaken node := by
  cases node with
  | list xs => cases hlist
  | map es =>
    obtain ⟨key, es', rfl, hsame, hchecked, hnamed⟩ := strip_map_sameBut h
    refine ⟨rfl, ?_, ?_⟩
    · rw [isMarked, isMarked, hsame.field?_eq (Ne.symm hchecked), hsame.field?_eq (Ne.symm hnamed)]
    · rw [isTaken, isTaken, isTakenAsIs, isTakenAsIs, hsame.field?_eq (Ne.symm hchecked),
        hsame.field?_eq (Ne.symm hnamed)]
  | _ =>
    rw [NullFree.strip.eq_def] at h
    cases h
    exact ⟨rfl, rfl, rfl⟩

theorem atTop_collapse {P : Value → Prop} {ys : List Value} (hnull : P (.str "null"))
    (h : ∀ y ∈ ys, AtTop P y) : AtTop P (NullFree.collapse ys) := by
  match ys with
  | [] => exact .single rfl hnull
  | [y] => exact h y List.mem_cons_self
  | y :: z :: ys => exact .list h

/-- What is left of sound nodes at the top does not break the reader off. -/
theorem strip_atTop {node node' : Value} (h : AtTop SoundAlone node)
    (hstrip : NullFree.strip node = .ok node') :
    AtTop (fun v => isTaken v = true ∨ TameAlone v) node' := by
  induction h generalizing node' with
  | list _ ih =>
    rw [NullFree.strip] at hstrip
    obtain ⟨ys, hys, hstrip⟩ := Except.of_bind_ok hstrip
    cases hstrip
    refine atTop_collapse (.inr ⟨rfl, (.intro trivial (List.forall_mem_nil _))⟩) fun y hy => ?_
    obtain ⟨x, hx, hxy⟩ := NullFree.of_mem_stripBranches hys y hy
    exact ih x hx hxy
  | single hlist h =>
    obtain ⟨hlist', hmarked', htaken'⟩ := strip_keeps hlist hstrip
    refine .single hlist' ?_
    obtain h | ⟨hmarked, hsound⟩ := h
    · exact .inl (htaken'.trans h)
    · obtain ⟨node₁, hnode₁, htame⟩ := strip_sound hsound
      cases hstrip.symm.trans hnode₁
      exact .inr ⟨hmarked'.trans hmarked, htame⟩

/-- Sound nodes at the top can be stripped, if none of them was taken as it is. -/
theorem strip_atTop_ok {node : Value}
    (h : AtTop (fun v => SoundAlone v ∧ isMarked v = false) node) :
    ∃ node', NullFree.strip node = .ok node' := by
  induction h with
  | list _ ih =>
    obtain ⟨ys, hys⟩ := NullFree.stripBranches_ok ih
    exact ⟨NullFree.collapse ys, by rw [NullFree.strip, hys]; rfl⟩
  | single hlist h =>
    obtain ⟨htaken | ⟨-, hsound⟩, hmarked⟩ := h
    · cases (isMarked_of_isTaken htaken).symm.trans hmarked
    · obtain ⟨node', hnode', -⟩ := strip_sound hsound
      exact ⟨node', hnode'⟩

/-! ## Whole nodes -/

section Whole

variable {node : Value}

/-- Reading a node fails with reported faults only, if none is marked as checked at its top and no
object in it breaks the reader off. -/
theorem parse_reported (h : AtTop TameAlone node) {fault : SchemaFault}
    (hfault : parse node = .error fault) : Reported fault :=
  (parseTop_reports (h.mono fun _ => .inr)).run' hfault

/-- Such a node can be stripped of nulls, if it is read. -/
theorem strip_of_parse (hnode : node.Keyed) (h : AtTop TameAlone node) {s : Schema}
    (hparse : parse node = .ok s) : ∃ node', NullFree.strip node = .ok node' := by
  have hsound := parseTop_sound hnode (yields_of_run' hparse)
  exact strip_atTop_ok ((hsound.and h).mono fun v hv => ⟨hv.1, hv.2.1⟩)

/-- Whatever node was read: if it can be stripped of nulls, reading what is left fails with reported
faults only. -/
theorem parse_stripped_reported (hnode : node.Keyed) {s : Schema} (hparse : parse node = .ok s)
    {node' : Value} (hstrip : NullFree.strip node = .ok node') {fault : SchemaFault}
    (hfault : parse node' = .error fault) : Reported fault :=
  (parseTop_reports (strip_atTop (parseTop_sound hnode (yields_of_run' hparse)) hstrip)).run'
    hfault

end Whole

end Schema

end Avro
end StreamTable
