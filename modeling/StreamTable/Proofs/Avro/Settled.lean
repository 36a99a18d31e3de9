/-
Names are settled once.  The node of a schema has no namespaces, so a name that is read from it
without a dot either stands in no namespace or gets the one around it, and has a dot from then on.
What stands for a schema therefore stands for itself, unless a part of it was taken unchecked.
-/
import StreamTable.Proofs.Avro.Settling

namespace StreamTable
namespace Avro
namespace Schema

open Value

/-- The namespace and the full name of a name, seen from a namespace. -/
def homeOf (name around : String) : String × String :=
  if name.toList.contains '.' then (namespaceOf name, name)
  else if around.isEmpty then ("", name)
  else (around, around ++ "." ++ name)

theorem namespaceOf_append {name : String} (h : name.toList.contains '.' = false)
    (around : String) : namespaceOf (around ++ "." ++ name) = around := by
  have hname : ∀ c ∈ name.toList.reverse, (decide (c ≠ '.')) = true := by
    intro c hc
    have hne : c ≠ '.' := by
      rintro rfl
      rw [Bool.eq_false_iff] at h
      exact h (by simpa using hc)
    simpa using hne
  rw [namespaceOf, String.toList_append, String.toList_append, List.reverse_append,
    List.reverse_append, List.dropWhile_append_of_pos hname]
  simp

theorem homeOf_dotted {name : String} (h : name.toList.contains '.' = true) (around : String) :
    homeOf name around = (namespaceOf name, name) := if_pos h

theorem homeOf_bare {name around : String} (h : name.toList.contains '.' = false)
    (hempty : around.isEmpty = true) : homeOf name around = ("", name) := by
  rw [homeOf, h, hempty]
  rfl

theorem homeOf_inside {name around : String} (h : name.toList.contains '.' = false)
    (hempty : around.isEmpty = false) : homeOf name around = (around, around ++ "." ++ name) := by
  rw [homeOf, h, hempty]
  rfl

theorem homeOf_homeOf (name around : String) :
    homeOf (homeOf name around).2 around = homeOf name around := by
  cases hdot : name.toList.contains '.' with
  | true => rw [homeOf_dotted hdot, homeOf_dotted hdot]
  | false =>
    cases hempty : around.isEmpty with
    | true => rw [homeOf_bare hdot hempty, homeOf_bare hdot hempty]
    | false =>
      have hlong : (around ++ "." ++ name).toList.contains '.' = true := by
        simp [String.toList_append]
      rw [homeOf_inside hdot hempty, homeOf_dotted hlong, namespaceOf_append hdot]

theorem isTruthy_str (s : String) : (Value.str s).isTruthy = !s.isEmpty := rfl

theorem fullNameOf_text {es : List (Value × Value)} {name : String} (around : String)
    (hname : Value.field? es "name" = some (.str name))
    (hns : Value.field? es "namespace" = none) :
    fullNameOf es (.within (.str around)) =
      .ok (.within (.str (homeOf name around).1), (homeOf name around).2) := by
  rw [fullNameOf, nameWithin, hname, hns, Option.getD_none]
  dsimp only
  rw [isTruthy_str]
  cases hdot : name.toList.contains '.' with
  | true =>
    rw [homeOf_dotted hdot]
    rfl
  | false =>
    cases hempty : around.isEmpty with
    | true =>
      rw [homeOf_bare hdot hempty]
      rfl
    | false =>
      rw [homeOf_inside hdot hempty]
      rfl

theorem referenceName_text (name around : String) :
    referenceName name (.within (.str around)) = some (homeOf name around).2 := by
  rw [referenceName, isTruthy_str]
  cases hdot : name.toList.contains '.' with
  | true =>
    rw [homeOf_dotted hdot]
    rfl
  | false =>
    cases hempty : around.isEmpty with
    | true =>
      rw [homeOf_bare hdot hempty]
      rfl
    | false =>
      rw [homeOf_inside hdot hempty]
      rfl

/-! ## Attributes of attributes -/

/-- The keys that an object is written with, beside its attributes and its type. -/
def writtenKeys : List String := ["name", "fields", "items", "size", "symbols", "values"]

def Written (own : List (Value × Value)) : Prop := ∀ e ∈ own, ∃ key ∈ writtenKeys, e.1 = .str key

theorem Written.nil : Written [] := List.forall_mem_nil _

theorem Written.cons {own : List (Value × Value)} (h : Written own) {key : String}
    (hkey : key ∈ writtenKeys) (v : Value) : Written (entry key v :: own) := by
  intro e he
  obtain rfl | he := List.mem_cons.mp he
  · exact ⟨key, hkey, rfl⟩
  · exact h e he

theorem Written.field?_eq_none {own : List (Value × Value)} (h : Written own) {key : String}
    (hkey : key ∉ writtenKeys) : Value.field? own key = none := by
  refine Value.field?_eq_none fun e he => ?_
  obtain ⟨key', hkey', hstr⟩ := h e he
  rw [hstr, isText, beq_eq_false_iff_ne]
  rintro rfl
  exact hkey hkey'

/-- The attributes of a node that is written with attributes are the same. -/
theorem attributesOf_append (es : List (Value × Value)) {own : List (Value × Value)}
    (hown : Written own) (kind : Value) :
    attributesOf (attributesOf es ++ entry "type" kind :: own) = attributesOf es := by
  have hnone : (entry "type" kind :: own).filter (fun e => !reservedKeys.any (e.1.isText ·)) =
      [] := by
    refine List.filter_eq_nil_iff.mpr fun e he => ?_
    rw [Bool.not_eq_true', Bool.not_eq_false, List.any_eq_true]
    obtain rfl | he := List.mem_cons.mp he
    · exact ⟨"type", by decide, rfl⟩
    · obtain ⟨key, hkey, hstr⟩ := hown e he
      have hreserved : ∀ key ∈ writtenKeys, key ∈ reservedKeys := by decide
      exact ⟨key, hreserved key hkey, by rw [hstr, isText, beq_self_eq_true]⟩
  have hdoc : Value.field? (entry "type" kind :: own) "doc" = none := by
    rw [field?_entry, hown.field?_eq_none (by decide)]
    rfl
  have hplain : Value.field? (es.filter fun e => !reservedKeys.any (e.1.isText ·)) "doc" =
      none := by
    refine Value.field?_eq_none fun e he => ?_
    have hkeys := List.any_eq_false.mp (Bool.not_eq_true' _ ▸ (List.mem_filter.mp he).2)
    exact Bool.eq_false_iff.mpr (hkeys "doc" (by decide))
  have hentry (v : Value) :
      [entry "doc" v].filter (fun e => !reservedKeys.any (e.1.isText ·)) = [] := rfl
  simp only [attributesOf]
  cases hv : Value.field? es "doc" with
  | none =>
    simp only [List.filter_append, List.filter_filter, Bool.and_self, hnone, Value.field?_append,
      hplain, hdoc, List.append_nil, Option.or_none]
  | some v =>
    simp only [List.filter_append, List.filter_filter, Bool.and_self, hentry, hnone,
      Value.field?_append, hplain, field?_entry, List.append_nil, if_true, Option.none_or,
      Option.some_or]

theorem Describes.written {es own : List (Value × Value)} {kind kind' : String}
    {attrs : Attributes} (h : Describes es kind attrs) (hes : RegularEntries es)
    (hown : Written own) :
    Describes (attrs ++ entry "type" (.str kind') :: own) kind' attrs := by
  rw [h.attributes]
  exact ⟨(attributesOf_regular hes).field?_type _ _,
    (attributesOf_append es hown _).symm⟩

theorem Describes.regular {es : List (Value × Value)} {kind : String} {attrs : Attributes}
    (h : Describes es kind attrs) (hes : RegularEntries es) : RegularAttributes attrs := by
  rw [h.attributes]
  exact attributesOf_regular hes

/-! ## Reading once more -/

/-- The entries that a named type is written with. -/
def namedEntries (attrs : Attributes) (kind name : String) (own : List (Value × Value)) :
    List (Value × Value) :=
  attrs ++ entry "type" (.str kind) :: entry "name" (.str name) :: own

section Nodes

variable {attrs own : List (Value × Value)} (hattrs : RegularAttributes attrs)

include hattrs

theorem tagOf_node (kind : String) (own : List (Value × Value)) :
    tagOf (.map (attrs ++ entry "type" (.str kind) :: own)) = .ofKind kind := by
  rw [tagOf, hattrs.field?_type]
  rfl

theorem fullNameOf_node (hown : Written own) (type : Value) (name around : String) :
    fullNameOf (attrs ++ entry "type" type :: entry "name" (.str name) :: own)
        (.within (.str around)) =
      .ok (.within (.str (homeOf name around).1), (homeOf name around).2) := by
  refine fullNameOf_text around ?_ ?_
  · rw [hattrs.field?_append (by decide), field?_entry, field?_entry]
    rfl
  · rw [hattrs.field?_append (by decide), field?_entry, field?_entry,
      hown.field?_eq_none (by decide)]
    rfl

/-- A named type that was read from a node keeps its attributes and its name when it is written. -/
theorem named_again {own own' attrs' : List (Value × Value)} {kind name name' around : String}
    {inner : Scope} (hown : Written own) (hown' : Written own')
    (hentries : RegularEntries (namedEntries attrs kind name own))
    (hes : Describes (namedEntries attrs kind name own) kind attrs')
    (hname : fullNameOf (namedEntries attrs kind name own) (.within (.str around)) =
      .ok (inner, name')) :
    Describes (namedEntries attrs' kind name' own') kind attrs' ∧
      fullNameOf (namedEntries attrs' kind name' own') (.within (.str around)) =
        .ok (inner, name') ∧
      ∃ home, inner = .within (.str home) := by
  unfold namedEntries at *
  rw [fullNameOf_node hattrs hown] at hname
  cases hname
  refine ⟨hes.written hentries (hown'.cons (by decide) _), ?_, _, rfl⟩
  rw [fullNameOf_node (hes.regular hentries) hown', homeOf_homeOf]

/-- An enum or a fixed type that was read from a node keeps what it holds of its own. -/
theorem namedEntry_again {attrs' : Attributes} {kind name name' around key : String}
    {v w : Value} {inner : Scope} (hkey : key ∈ ownKeys ∧ key ≠ "type" ∧ key ≠ "name")
    (hwritten : key ∈ writtenKeys)
    (hentries : RegularEntries (namedEntries attrs kind name [entry key v]))
    (hes : Describes (namedEntries attrs kind name [entry key v]) kind attrs')
    (hname : fullNameOf (namedEntries attrs kind name [entry key v]) (.within (.str around)) =
      .ok (inner, name'))
    (hv : Value.field? (namedEntries attrs kind name [entry key v]) key = some w) :
    Describes (namedEntries attrs' kind name' [entry key w]) kind attrs' ∧
      fullNameOf (namedEntries attrs' kind name' [entry key w]) (.within (.str around)) =
        .ok (inner, name') ∧
      Value.field? (namedEntries attrs' kind name' [entry key w]) key = some w := by
  obtain rfl : v = w := Option.some.inj ((hattrs.field?_named hkey _ _ _).symm.trans hv)
  have hown : Written [entry key v] := Written.nil.cons hwritten _
  obtain ⟨hes', hname', -⟩ := named_again hattrs hown hown hentries hes hname
  exact ⟨hes', hname', (hes.regular hentries).field?_named hkey _ _ _⟩

/-- An array or a map is read from the type that its node holds, and whatever type it is written
with is the one that is read from it. -/
theorem typedEntry_again {attrs' : Attributes} {kind key : String} {v w : Value}
    (hkey : key ∈ ownKeys ∧ key ≠ "type") (hwritten : key ∈ writtenKeys)
    (hentries : RegularEntries (attrs ++ [entry "type" (.str kind), entry key v]))
    (hes : Describes (attrs ++ [entry "type" (.str kind), entry key v]) kind attrs')
    (hv : Value.field? (attrs ++ [entry "type" (.str kind), entry key v]) key = some w) :
    w = v ∧ ∀ x : Value,
      Describes (attrs' ++ [entry "type" (.str kind), entry key x]) kind attrs' ∧
        Value.field? (attrs' ++ [entry "type" (.str kind), entry key x]) key = some x :=
  ⟨Option.some.inj (hv.symm.trans (hattrs.field?_typed hkey _ _)), fun x =>
    ⟨hes.written hentries (Written.nil.cons hwritten x),
      (hes.regular hentries).field?_typed hkey _ x⟩⟩

end Nodes

theorem fieldAttributesOf_node {f : FieldHead} (hf : f.Regular) (type : Value) :
    fieldAttributesOf (f.attributes ++ [entry "name" f.name, entry "type" type]) =
      f.attributes := by
  have hkept : f.attributes.filter (fun e => !(e.1.isText "type" || e.1.isText "name")) =
      f.attributes := by
    refine List.filter_eq_self.mpr fun e he => ?_
    rw [(hf.keys e he).1, (hf.keys e he).2]
    rfl
  rw [fieldAttributesOf, List.filter_append, hkept]
  exact List.append_nil _

mutual

/-- What is read from the node of a schema is what its own node says. -/
theorem ReadFrom.again : ∀ {s t : Schema} {around : String}, s.Regular → s.isChecked = true →
    t.ReadFrom s.toValue (.within (.str around)) → t.ReadFrom t.toValue (.within (.str around))
  | .primitive p, t, around, _, _, h => by
    have htag := h.tag_eq
    rw [toValue, tagOf, ofName?_name] at htag
    cases t with
    | primitive q => exact rfl
    | _ => cases htag
  | .named name, t, around, hs, _, h => by
    have htag := h.tag_eq
    rw [toValue, tagOf, hs] at htag
    cases t with
    | named name' =>
      obtain ⟨u, hu, -, hname⟩ := h
      cases hu
      refine ⟨name', rfl, ofName?_reference hs hname, ?_⟩
      rw [referenceName_text] at hname ⊢
      cases hname
      rw [homeOf_homeOf]
    | _ => cases htag
  | .annotated p attrs, t, around, hs, _, h => by
    have hregular := (toValue_regular hs).entries
    have htag := h.tag_eq.trans (tagOf_node hs p.name [])
    cases t with
    | annotated q attrs' =>
      obtain ⟨es, hnode, hes⟩ := h
      cases hnode
      exact ⟨_, rfl, hes.written hregular .nil⟩
    | _ => cases p <;> cases htag
  | .array items attrs, t, around, hs, hread, h => by
    have hregular := (toValue_regular hs).entries
    have htag := h.tag_eq.trans (tagOf_node hs.1 "array" _)
    cases t with
    | array items' attrs' =>
      obtain ⟨es, v, hnode, hes, hv, hitems⟩ := h
      cases hnode
      obtain ⟨rfl, hagain⟩ := typedEntry_again hs.1 (by decide) (by decide) hregular hes hv
      obtain ⟨hes', hv'⟩ := hagain items'.toValue
      exact ⟨_, _, rfl, hes', hv', hitems.again hs.2 (inherited_everywhere.array hread)⟩
    | _ => cases htag
  | .map values attrs, t, around, hs, hread, h => by
    have hregular := (toValue_regular hs).entries
    have htag := h.tag_eq.trans (tagOf_node hs.1 "map" _)
    cases t with
    | map values' attrs' =>
      obtain ⟨es, v, hnode, hes, hv, hvalues⟩ := h
      cases hnode
      obtain ⟨rfl, hagain⟩ := typedEntry_again hs.1 (by decide) (by decide) hregular hes hv
      obtain ⟨hes', hv'⟩ := hagain values'.toValue
      exact ⟨_, _, rfl, hes', hv', hvalues.again hs.2 (inherited_everywhere.map hread)⟩
    | _ => cases htag
  | .enum name symbols attrs, t, around, hs, hread, h => by
    have hregular := (toValue_regular hs).entries
    have htag := h.tag_eq.trans (tagOf_node hs.1 "enum" _)
    cases t with
    | enum name' symbols' attrs' =>
      obtain ⟨es, inner, hnode, hes, hname, hsymbols⟩ := h
      cases hnode
      exact ⟨_, inner, rfl,
        namedEntry_again hs.1 (by decide) (by decide) hregular hes hname hsymbols⟩
    | _ => cases htag
  | .fixed name size attrs, t, around, hs, hread, h => by
    have hregular := (toValue_regular hs).entries
    have htag := h.tag_eq.trans (tagOf_node hs.1 "fixed" _)
    cases t with
    | fixed name' size' attrs' =>
      obtain ⟨es, inner, hnode, hes, hname, hsize⟩ := h
      cases hnode
      exact ⟨_, inner, rfl,
        namedEntry_again hs.1 (by decide) (by decide) hregular hes hname hsize⟩
    | _ => cases htag
  | .record isError name fields attrs, t, around, hs, hread, h => by
    have hregular := (toValue_regular hs).entries
    have htag := h.tag_eq.trans (tagOf_node hs.1 (if isError then "error" else "record") _)
    have hkind : Tag.ofKind (if isError then "error" else "record") = .record isError := by
      cases isError <;> rfl
    rw [hkind] at htag
    cases t with
    | record isError' name' fields' attrs' =>
      cases htag
      obtain ⟨es, inner, hnode, hes, hname, hfields⟩ := h
      cases hnode
      rw [hs.1.field?_named (by decide)] at hfields
      have hown (fs : List Value) : Written [entry "fields" (.list fs)] :=
        Written.nil.cons (by decide) _
      obtain ⟨hes', hname', home, rfl⟩ :=
        named_again hs.1 (hown _) (hown (fieldValues fields')) hregular hes hname
      refine ⟨_, .within (.str home), rfl, hes', hname', ?_⟩
      rw [(hes.regular hregular).field?_named (by decide)]
      exact FieldsReadFrom.again hfields hs.2 (inherited_everywhere.record hread)
    | _ => cases htag
  | .union branches, t, around, hs, hread, h => by
    have htag := h.tag_eq
    cases t with
    | union branches' =>
      obtain ⟨xs, hnode, hbranches⟩ := h
      cases hnode
      exact ⟨_, rfl, hbranches.again hs (inherited_everywhere.union hread)⟩
    | _ => cases htag
  | .unchecked node, t, around, _, hread, h => by cases hread

theorem FieldsReadFrom.again : ∀ {fields fields' : List Field} {ns : String},
    FieldsReadFrom fields' (fieldValues fields) (.within (.str ns)) → RegularFields fields →
    fieldsEverywhere isRead fields = true →
    FieldsReadFrom fields' (fieldValues fields') (.within (.str ns))
  | [], fields', ns, h, _, _ => by
    cases fields' with
    | nil => exact rfl
    | cons f rest =>
      obtain ⟨es, v, ys, hcons, -⟩ := h
      cases hcons
  | (f, s) :: rest, fields', ns, h, hs, hread => by
    obtain ⟨hshead, hrest⟩ := inherited_everywhere.field hread
    cases fields' with
    | nil => cases h
    | cons g rest' =>
      obtain ⟨⟨name, attrs⟩, t⟩ := g
      obtain ⟨es, v, ys, hcons, hname, hattributes, hv, ht, hys⟩ := h
      cases hcons
      rw [fieldAttributesOf_node hs.1] at hattributes
      rw [hs.1.field?_append (.inr rfl), field?_entry] at hname
      rw [hs.1.field?_append (.inl rfl), field?_entry, field?_entry] at hv
      cases hattributes
      cases hname
      cases hv
      refine ⟨_, _, _, rfl, ?_, (fieldAttributesOf_node hs.1 _).symm, ?_,
        ht.again hs.2.1 hshead, hys.again hs.2.2 hrest⟩
      · rw [hs.1.field?_append (.inr rfl), field?_entry]
        rfl
      · rw [hs.1.field?_append (.inl rfl), field?_entry, field?_entry]
        rfl

theorem BranchesReadFrom.again : ∀ {branches branches' : List Schema} {around : String},
    BranchesReadFrom branches' (branchValues branches) (.within (.str around)) →
    RegularBranches branches →
    branchesEverywhere isRead branches = true →
    BranchesReadFrom branches' (branchValues branches') (.within (.str around))
  | [], branches', around, h, _, _ => by
    cases branches' with
    | nil => exact rfl
    | cons t rest =>
      obtain ⟨x, ys, hcons, -⟩ := h
      cases hcons
  | s :: rest, branches', around, h, hs, hread => by
    obtain ⟨hshead, hrest⟩ := inherited_everywhere.branch hread
    cases branches' with
    | nil => cases h
    | cons t rest' =>
      obtain ⟨x, ys, hcons, ht, hys⟩ := h
      cases hcons
      exact ⟨_, _, rfl, ht.again hs.1 hshead, hys.again hs.2 hrest⟩

end

mutual

/-- A schema that its own node says is read as itself. -/
theorem reread_same : ∀ {t t' : Schema}, t.ReadFrom t.toValue .top → Yields (reread t) t' →
    t' = t
  | .record isError name fields attrs, t', _, h => by
    obtain ⟨-, -, h⟩ := yields_bind h
    exact yields_pure h
  | .union branches, t', ht, h => by
    obtain ⟨xs, hnode, hbranches⟩ := ht
    cases hnode
    rw [reread] at h
    obtain ⟨ts, hts, h⟩ := yields_bind h
    rw [yields_pure h, rereadAll_same hbranches hts]
  | .unchecked node, t', ht, _ => ht.elim
  | .primitive _, t', ht, h | .named _, t', ht, h | .annotated _ _, t', ht, h
  | .array _ _, t', ht, h | .map _ _, t', ht, h | .enum _ _ _, t', ht, h
  | .fixed _ _ _, t', ht, h => (parseOne_yields h).unique ht

theorem rereadAll_same : ∀ {branches ts : List Schema},
    BranchesReadFrom branches (branchValues branches) .top → Yields (rereadAll branches) ts →
    ts = branches
  | [], ts, _, h => by
    rw [rereadAll] at h
    exact yields_pure h
  | s :: rest, ts, hs, h => by
    obtain ⟨x, ys, hcons, hs, hrest⟩ := hs
    cases hcons
    rw [rereadAll] at h
    obtain ⟨t, ht, h⟩ := yields_bind h
    obtain ⟨ts', hts, h⟩ := yields_bind h
    rw [yields_pure h, reread_same hs ht, rereadAll_same hrest hts]

end

mutual

theorem reread_again : ∀ {s t t' : Schema}, s.Regular → s.isChecked = true →
    Yields (reread s) t → Yields (reread t) t' → t' = t
  | .record isError name fields attrs, t, t', _, _, h, h' => by
    obtain ⟨-, -, h⟩ := yields_bind h
    rw [yields_pure h] at h' ⊢
    obtain ⟨-, -, h'⟩ := yields_bind h'
    exact yields_pure h'
  | .union branches, t, t', hs, hread, h, h' => by
    rw [reread] at h
    obtain ⟨ts, hts, h⟩ := yields_bind h
    rw [yields_pure h] at h' ⊢
    rw [reread] at h'
    obtain ⟨ts', hts', h'⟩ := yields_bind h'
    rw [yields_pure h', rereadAll_again hs (inherited_everywhere.union hread) hts hts']
  | .unchecked node, t, t', _, hread, _, _ => by cases hread
  | .primitive _, t, t', hs, hread, h, h' | .named _, t, t', hs, hread, h, h'
  | .annotated _ _, t, t', hs, hread, h, h' | .array _ _, t, t', hs, hread, h, h'
  | .map _ _, t, t', hs, hread, h, h' | .enum _ _ _, t, t', hs, hread, h, h'
  | .fixed _ _ _, t, t', hs, hread, h, h' =>
    reread_same ((parseOne_yields h).again hs hread) h'

theorem rereadAll_again : ∀ {branches ts ts' : List Schema}, RegularBranches branches →
    branchesEverywhere isRead branches = true → Yields (rereadAll branches) ts →
    Yields (rereadAll ts) ts' → ts' = ts
  | [], ts, ts', _, _, h, h' => by
    rw [rereadAll] at h
    rw [yields_pure h] at h' ⊢
    rw [rereadAll] at h'
    exact yields_pure h'
  | s :: rest, ts, ts', hs, hread, h, h' => by
    obtain ⟨hshead, hrest⟩ := inherited_everywhere.branch hread
    rw [rereadAll] at h
    obtain ⟨t, ht, h⟩ := yields_bind h
    obtain ⟨us, hus, h⟩ := yields_bind h
    rw [yields_pure h] at h' ⊢
    rw [rereadAll] at h'
    obtain ⟨t', ht', h'⟩ := yields_bind h'
    obtain ⟨us', hus', h'⟩ := yields_bind h'
    rw [yields_pure h', reread_again hs.1 hshead ht ht', rereadAll_again hs.2 hrest hus hus']

end

/-- What stands for a schema stands for itself. -/
theorem settle_again {s t t' : Schema} (hs : s.Regular) (hread : s.isChecked = true)
    (ht : s.settle = .ok t) (ht' : t.settle = .ok t') : t' = t :=
  reread_again hs hread (yields_of_run' ht) (yields_of_run' ht')

/-- What stands for a record is a record. -/
theorem tag_of_settle {s t : Schema} (hs : s.isRecord = true) (ht : s.settle = .ok t) :
    ∃ isError, t.tag = .record isError := by
  cases s with
  | record isError name fields attrs =>
    cases ht
    exact ⟨isError, rfl⟩
  | unchecked node =>
    cases node with
    | map es =>
      have hread : t.ReadFrom (unmarked (.map es)) .verbatim := parseNode_yields (yields_of_run' ht)
      have htype : Value.field? (es.filter fun e => !(e.1.isText checkedKey || e.1.isText namedKey))
          "type" = Value.field? es "type" :=
        NullFree.field?_unmarked (by decide)
      have htag := hread.tag_eq
      rw [unmarked, tagOf, htype] at htag
      rw [isRecord] at hs
      cases hfield : Value.field? es "type" with
      | none =>
        rw [hfield] at hs
        cases hs
      | some type =>
        rw [hfield] at hs htag
        obtain hkind | hkind := Bool.or_eq_true_iff.mp hs
        · rw [isText_eq_same, same_str] at hkind
          rw [hkind] at htag
          exact ⟨false, htag⟩
        · rw [isText_eq_same, same_str] at hkind
          rw [hkind] at htag
          exact ⟨true, htag⟩
    | _ => cases hs
  | _ => cases hs

/-- What stands for a record stands for itself. -/
theorem settle_of_isRecord {s t : Schema} (hs : s.isRecord = true) (ht : s.settle = .ok t) :
    t.settle = .ok t := by
  obtain ⟨isError, htag⟩ := tag_of_settle hs ht
  cases t with
  | record isError name fields attrs => rfl
  | _ => cases htag

end Schema
end Avro
end StreamTable
