/-
Nodes that differ in the order of their keys.  Two objects hold the same if they have the same keys
and under each key what holds the same again.  Reading a node looks its entries up by key, so two
such nodes are read alike: what comes of them has the same names, symbols, sizes and fields, and
differs at most in the order of attributes.

There is one exception.  What stands for a name, a namespace, the symbols of an enum or the size of
a fixed type is not checked to be a text, a list or a number.  If it is an object, it is taken with
its keys in the order they stand in, so there the order counts.
-/
import Mathlib.Data.List.Forall2
import Mathlib.Data.Option.Basic
import StreamTable.Proofs.Avro.Regular

namespace StreamTable
namespace Avro

open Value

/-! ## The order of keys -/

/-- What a value stands for in a node, as far as the order of keys is concerned. -/
inductive Place where
  /-- The order does not count, nor what stands inside. -/
  | data
  /-- The order counts. -/
  | exact
  | type
  | fields
  | field
deriving DecidableEq

namespace Place

/-- The kinds of types that have names. -/
def namedKinds : List String := ["enum", "fixed", "record", "error"]

/-- What stands under a key of a type of some kind. -/
def inType (kind key : String) : Place :=
  if kind = "array" ∧ key = "items" ∨ kind = "map" ∧ key = "values" then .type
  else if (kind = "record" ∨ kind = "error") ∧ key = "fields" then .fields
  else if kind = "enum" ∧ key = "symbols" ∨ kind = "fixed" ∧ key = "size" then .exact
  else if kind ∈ namedKinds ∧ (key = "name" ∨ key = "namespace") then .exact
  else .data

/-- What stands under a key of an object. -/
def under (p : Place) (es : List (Value × Value)) (key : String) : Place :=
  match p with
  | .type => inType (((field? es "type").bind asStr?).getD "") key
  | .field => if key = "type" then .type else if key = "name" then .exact else .data
  | _ => .data

/-- What the items of a list are. -/
def item : Place → Place
  | .type => .type
  | .fields => .field
  | _ => .data

end Place

/-- Two values are the same but for the order of keys in their objects, and but for that only where
the order does not count. -/
inductive Reordered : Place → Value → Value → Prop where
  | exact (v : Value) : Reordered .exact v v
  | atom (p : Place) (v : Value) (h : v.isAtom = true) : Reordered p v v
  | list {p : Place} {xs ys : List Value} (hp : p ≠ .exact) (hlength : xs.length = ys.length)
      (h : ∀ i (hx : i < xs.length) (hy : i < ys.length), Reordered p.item xs[i] ys[i]) :
      Reordered p (.list xs) (.list ys)
  | map {p : Place} {es fs : List (Value × Value)} (hp : p ≠ .exact)
      (hkeys : (es.map Prod.fst).Perm (fs.map Prod.fst))
      (h : ∀ key v w, field? es key = some v → field? fs key = some w →
        Reordered (p.under es key) v w) :
      Reordered p (.map es) (.map fs)

namespace Reordered

variable {p : Place} {v w : Value} {es fs : List (Value × Value)} {key : String}

/-- What is no list and no object is the same. -/
theorem eq_or_whole (h : Reordered p v w) :
    v = w ∨ (∃ xs ys, v = .list xs ∧ w = .list ys ∧ xs.length = ys.length) ∨
      ∃ es fs, v = .map es ∧ w = .map fs ∧ (es.map Prod.fst).Perm (fs.map Prod.fst) := by
  cases h with
  | exact => exact .inl rfl
  | atom => exact .inl rfl
  | list _ hlength _ => exact .inr (.inl ⟨_, _, rfl, rfl, hlength⟩)
  | map _ hkeys _ => exact .inr (.inr ⟨_, _, rfl, rfl, hkeys⟩)

theorem eq_of_exact (h : Reordered .exact v w) : v = w := by
  cases h with
  | exact => rfl
  | atom => rfl
  | list hp => exact absurd rfl hp
  | map hp => exact absurd rfl hp

theorem isTruthy_eq (h : Reordered p v w) : v.isTruthy = w.isTruthy := by
  obtain rfl | ⟨xs, ys, rfl, rfl, hlength⟩ | ⟨es, fs, rfl, rfl, hkeys⟩ := h.eq_or_whole
  · rfl
  · cases xs <;> cases ys <;> first | rfl | cases hlength
  · have hlength : es.length = fs.length := by simpa using hkeys.length_eq
    cases es <;> cases fs <;> first | rfl | cases hlength

theorem isText_eq (h : Reordered p v w) (s : String) : v.isText s = w.isText s := by
  obtain rfl | ⟨xs, ys, rfl, rfl, -⟩ | ⟨es, fs, rfl, rfl, -⟩ := h.eq_or_whole
  · rfl
  · rfl
  · rfl

theorem nil (hp : p ≠ .exact) : Reordered p (.list []) (.list []) := .list hp rfl nofun

theorem cons {xs ys : List Value} (hp : p ≠ .exact) (h : Reordered p.item v w)
    (hs : Reordered p (.list xs) (.list ys)) :
    Reordered p (.list (v :: xs)) (.list (w :: ys)) := by
  cases hs with
  | exact => exact absurd rfl hp
  | atom _ _ hatom => cases hatom
  | list _ hlength hitems =>
    refine .list hp (congrArg Nat.succ hlength) fun i hx hy => ?_
    cases i with
    | zero => exact h
    | succ i => exact hitems i (Nat.lt_of_succ_lt_succ hx) (Nat.lt_of_succ_lt_succ hy)

/-- What is read from a text is the same as itself. -/
theorem refl (h : v.Regular) (p : Place) : Reordered p v v := by
  by_cases hp : p = .exact
  · exact hp ▸ .exact v
  induction h generalizing p with
  | atom v h => exact .atom p v h
  | list xs h ih =>
    refine .list hp rfl fun i hx _ => ?_
    by_cases hitem : p.item = .exact
    · exact hitem ▸ .exact _
    · exact ih _ (List.getElem_mem hx) _ hitem
  | map es hdefault h ih =>
    refine .map hp (.refl _) fun key v w hv hw => ?_
    obtain rfl := Option.some.inj (hv.symm.trans hw)
    obtain ⟨e, he, rfl⟩ := Option.map_eq_some_iff.mp hv
    by_cases hunder : p.under es key = .exact
    · exact hunder ▸ .exact _
    · exact ih e (List.mem_of_find?_eq_some he) _ hunder

end Reordered

/-! ## Entries -/

/-- Two lists of entries have the same keys and hold the same under each. -/
structure EntriesReordered (place : String → Place) (es fs : List (Value × Value)) : Prop where
  keys : (es.map Prod.fst).Perm (fs.map Prod.fst)
  values : ∀ key v w, field? es key = some v → field? fs key = some w → Reordered (place key) v w

theorem field?_isSome_iff {es : List (Value × Value)} {key : String} :
    (field? es key).isSome = true ↔ .str key ∈ es.map Prod.fst := by
  rw [field?_eq_find?, Option.isSome_map, List.find?_isSome, List.mem_map]
  constructor
  · rintro ⟨e, he, hkey⟩
    rw [isText_eq_same, same_str] at hkey
    exact ⟨e, he, hkey⟩
  · rintro ⟨e, he, hkey⟩
    exact ⟨e, he, by rw [hkey, isText_eq_same, same_str]⟩

/-- What stands under a key, if no two entries have one key. -/
theorem field?_eq_some_iff {es : List (Value × Value)} (hunique : (es.map Prod.fst).Nodup)
    {key : String} {v : Value} : field? es key = some v ↔ (.str key, v) ∈ es := by
  have hmem {w : Value} (hw : field? es key = some w) : (.str key, w) ∈ es := by
    obtain ⟨e, he, rfl⟩ := Option.map_eq_some_iff.mp hw
    have hkey : e.1 = .str key := same_str.mp (by simpa using List.find?_some he)
    exact hkey ▸ List.mem_of_find?_eq_some he
  refine ⟨hmem, fun hv => ?_⟩
  obtain ⟨w, hw⟩ := Option.isSome_iff_exists.mp
    (field?_isSome_iff.mpr (List.mem_map.mpr ⟨_, hv, rfl⟩))
  have hsame : (Value.str key, w) = (Value.str key, v) :=
    List.inj_on_of_nodup_map hunique (hmem hw) hv rfl
  exact hw.trans (congrArg (fun e => some e.2) hsame)

namespace EntriesReordered

variable {place place' : String → Place} {es fs es' fs' : List (Value × Value)} {key : String}
  {v w : Value}

theorem map {p : Place} (hp : p ≠ .exact) (h : EntriesReordered (p.under es) es fs) :
    Reordered p (.map es) (.map fs) := .map hp h.keys h.values

theorem field?_isSome (h : EntriesReordered place es fs) (key : String) :
    (field? es key).isSome = (field? fs key).isSome := by
  rw [Bool.eq_iff_iff, field?_isSome_iff, field?_isSome_iff]
  exact h.keys.mem_iff

theorem field?_none (h : EntriesReordered place es fs) (hv : field? es key = none) :
    field? fs key = none := by
  have hsome := h.field?_isSome key
  rw [hv] at hsome
  exact Option.isNone_iff_eq_none.mp (by rw [← Option.not_isSome, ← hsome]; rfl)

theorem field?_some (h : EntriesReordered place es fs) (hv : field? es key = some v) :
    ∃ w, field? fs key = some w ∧ Reordered (place key) v w := by
  have hsome := h.field?_isSome key
  rw [hv] at hsome
  obtain ⟨w, hw⟩ := Option.isSome_iff_exists.mp hsome.symm
  exact ⟨w, hw, h.values key v w hv hw⟩

theorem field?_rel (h : EntriesReordered place es fs) (key : String) :
    Option.Rel (Reordered (place key)) (field? es key) (field? fs key) := by
  cases hv : field? es key with
  | none =>
    rw [h.field?_none hv]
    exact .none
  | some v =>
    obtain ⟨w, hw, hvw⟩ := h.field?_some hv
    rw [hw]
    exact .some hvw

theorem field?_eq (h : EntriesReordered place es fs) (hkey : place key = .exact) :
    field? es key = field? fs key := by
  have hrel := h.field?_rel key
  rw [hkey] at hrel
  cases hv : field? es key with
  | none => exact (h.field?_none hv).symm
  | some v =>
    obtain ⟨w, hw, hvw⟩ := h.field?_some hv
    rw [hkey] at hvw
    rw [hw, hvw.eq_of_exact]

theorem append (h : EntriesReordered place es fs) (h' : EntriesReordered place es' fs') :
    EntriesReordered place (es ++ es') (fs ++ fs') where
  keys := by
    rw [List.map_append, List.map_append]
    exact h.keys.append h'.keys
  values key v w hv hw := by
    rw [field?_append] at hv hw
    cases hes : field? es key with
    | none =>
      rw [hes, Option.none_or] at hv
      rw [h.field?_none hes, Option.none_or] at hw
      exact h'.values key v w hv hw
    | some x =>
      obtain ⟨y, hfs, hxy⟩ := h.field?_some hes
      rw [hes, Option.some_or] at hv
      rw [hfs, Option.some_or] at hw
      cases hv
      cases hw
      exact hxy

/-- The entries may stand in any order. -/
theorem perm (h : EntriesReordered place es fs) (hperm : fs.Perm fs')
    (hunique : (fs.map Prod.fst).Nodup) : EntriesReordered place es fs' where
  keys := h.keys.trans (hperm.map _)
  values key v w hv hw := by
    have hunique' : (fs'.map Prod.fst).Nodup := (hperm.map _).nodup_iff.mp hunique
    have hmem := hperm.mem_iff.mpr ((field?_eq_some_iff hunique').mp hw)
    exact h.values key v w hv ((field?_eq_some_iff hunique).mpr hmem)

theorem nil (place : String → Place) : EntriesReordered place [] [] := ⟨.refl _, nofun⟩

theorem entry (key : String) (h : Reordered (place key) v w) :
    EntriesReordered place [Value.entry key v] [Value.entry key w] where
  keys := .refl _
  values key' v' w' hv hw := by
    rw [field?_entry] at hv hw
    split at hv
    · rename_i hkey
      rw [if_pos hkey] at hw
      cases hv
      cases hw
      exact hkey ▸ h
    · cases hv

/-- What stands under a key may be told for the keys that are there. -/
theorem congr (h : EntriesReordered place es fs)
    (hplace : ∀ key, (field? es key).isSome = true → place key = place' key) :
    EntriesReordered place' es fs where
  keys := h.keys
  values key v w hv hw := by
    rw [← hplace key (by rw [hv]; rfl)]
    exact h.values key v w hv hw

theorem field?_filterKeys (q : Value → Bool) (es : List (Value × Value)) (key : String) :
    field? (es.filter fun e => q e.1) key = if q (.str key) then field? es key else none := by
  split
  · rename_i hq
    refine field?_filter fun e _ hkey => ?_
    rw [isText_eq_same, same_str] at hkey
    rw [hkey]
    exact hq
  · rename_i hq
    refine field?_eq_none fun e he => Bool.eq_false_iff.mpr fun hkey => hq ?_
    rw [isText_eq_same, same_str] at hkey
    rw [← hkey]
    exact (List.mem_filter.mp he).2

/-- Entries that are chosen by their keys. -/
theorem filter (h : EntriesReordered place es fs) (q : Value → Bool) :
    EntriesReordered place (es.filter fun e => q e.1) (fs.filter fun e => q e.1) where
  keys := by
    have hmap (es : List (Value × Value)) :
        (es.filter fun e => q e.1).map Prod.fst = (es.map Prod.fst).filter q := by
      rw [List.filter_map]
      rfl
    rw [hmap, hmap]
    exact h.keys.filter q
  values key v w hv hw := by
    rw [field?_filterKeys] at hv hw
    split at hv
    · rename_i hq
      rw [if_pos hq] at hw
      exact h.values key v w hv hw
    · cases hv

end EntriesReordered

/-- The entries of an object may stand in any order. -/
theorem Reordered.perm {p : Place} {es fs fs' : List (Value × Value)} (hp : p ≠ .exact)
    (h : Reordered p (.map es) (.map fs)) (hperm : fs.Perm fs')
    (hunique : (fs.map Prod.fst).Nodup) : Reordered p (.map es) (.map fs') := by
  cases h with
  | exact => exact absurd rfl hp
  | atom _ _ hatom => cases hatom
  | map _ hkeys h => exact (EntriesReordered.perm ⟨hkeys, h⟩ hperm hunique).map hp

/-! ## Attributes -/

/-- Attributes that hold the same, and nothing that belongs to a kind of type. -/
structure AttributesAlike (a a' : Attributes) : Prop extends
    EntriesReordered (fun _ => .data) a a' where
  own : ∀ key ∈ ownKeys, field? a key = none

theorem AttributesAlike.nil : AttributesAlike [] [] :=
  { EntriesReordered.nil _ with own := fun _ _ => rfl }

/-- Heads of fields that hold the same. -/
structure FieldHead.Alike (f g : FieldHead) : Prop where
  name : f.name = g.name
  attributes : EntriesReordered (fun _ => .data) f.attributes g.attributes
  type : field? f.attributes "type" = none
  noName : field? f.attributes "name" = none

namespace Place

theorem inType_of_notMem {kind key : String} (h : key ∉ ownKeys) : inType kind key = .data := by
  simp only [ownKeys, List.mem_cons, List.not_mem_nil, or_false, not_or] at h
  obtain ⟨-, hname, hnamespace, hfields, hitems, hsize, hsymbols, hvalues⟩ := h
  simp [inType, hname, hnamespace, hfields, hitems, hsize, hsymbols, hvalues]

theorem inType_fields {kind : String} (h : kind = "record" ∨ kind = "error") :
    kind ∈ namedKinds ∧ inType kind "fields" = .fields := by
  obtain rfl | rfl := h <;> decide

theorem under_type {es : List (Value × Value)} {kind : String}
    (h : field? es "type" = some (.str kind)) (key : String) :
    Place.type.under es key = inType kind key := by
  rw [under, h]
  rfl

end Place

namespace Schema

variable {es fs : List (Value × Value)}

theorem reserved_of_own {key : String} (h : key ∈ ownKeys) :
    reservedKeys.any ((Value.str key).isText ·) = true := by
  have hreserved : ∀ key ∈ ownKeys, reservedKeys.any ((Value.str key).isText ·) = true := by
    decide
  exact hreserved key h

/-- A key is left among the attributes if it is none of the kinds' own. -/
theorem attributesOf_alike (h : EntriesReordered (Place.type.under es) es fs) :
    AttributesAlike (attributesOf es) (attributesOf fs) := by
  have hfind (key : String) :
      field? (es.filter fun e => !reservedKeys.any (e.1.isText ·)) key =
        if !reservedKeys.any ((Value.str key).isText ·) then field? es key else none :=
    EntriesReordered.field?_filterKeys (fun k => !reservedKeys.any (k.isText ·)) es key
  have hkept : EntriesReordered (fun _ => .data)
      (es.filter fun e => !reservedKeys.any (e.1.isText ·))
      (fs.filter fun e => !reservedKeys.any (e.1.isText ·)) := by
    refine (h.filter fun k => !reservedKeys.any (k.isText ·)).congr fun key hkey => ?_
    refine Place.inType_of_notMem fun hown => ?_
    rw [hfind, reserved_of_own hown] at hkey
    cases hkey
  have hdocPlace : Place.type.under es "doc" = .data := Place.inType_of_notMem (by decide)
  unfold attributesOf
  constructor
  · refine hkept.append ?_
    cases hv : field? es "doc" with
    | none =>
      rw [h.field?_none hv]
      exact .nil _
    | some v =>
      obtain ⟨w, hw, hvw⟩ := h.field?_some hv
      rw [hw]
      exact .entry "doc" (hdocPlace ▸ hvw)
  · intro key hkey
    have hne : "doc" ≠ key := by
      rintro rfl
      exact absurd hkey (by decide)
    rw [field?_append, hfind, reserved_of_own hkey]
    cases field? es "doc" with
    | none => rfl
    | some v => simp [field?_entry, hne, field?_nil]

theorem fieldAttributesOf_alike (h : EntriesReordered (Place.field.under es) es fs)
    (name : Value) :
    FieldHead.Alike ⟨name, fieldAttributesOf es⟩ ⟨name, fieldAttributesOf fs⟩ := by
  have hfind (key : String) : field? (fieldAttributesOf es) key =
      if !((Value.str key).isText "type" || (Value.str key).isText "name") then field? es key
      else none :=
    EntriesReordered.field?_filterKeys (fun k => !(k.isText "type" || k.isText "name")) es key
  refine ⟨rfl, ?_, hfind "type", hfind "name"⟩
  refine (h.filter fun k => !(k.isText "type" || k.isText "name")).congr fun key hkey => ?_
  have hnone : ∀ key', key' = "type" ∨ key' = "name" → key ≠ key' := by
    rintro key' hkey' rfl
    rw [← fieldAttributesOf, hfind] at hkey
    obtain rfl | rfl := hkey' <;> cases hkey
  simp [Place.under, hnone "type" (.inl rfl), hnone "name" (.inr rfl)]

/-! ## Schemas -/

mutual

/-- Two schemas are the same but for the order of their attributes. -/
def Alike : Schema → Schema → Prop
  | .primitive p, t => t = .primitive p
  | .named name, t => t = .named name
  | .annotated p a, t => ∃ a', t = .annotated p a' ∧ AttributesAlike a a'
  | .array s a, t => ∃ s' a', t = .array s' a' ∧ s.Alike s' ∧ AttributesAlike a a'
  | .map s a, t => ∃ s' a', t = .map s' a' ∧ s.Alike s' ∧ AttributesAlike a a'
  | .enum name symbols a, t => ∃ a', t = .enum name symbols a' ∧ AttributesAlike a a'
  | .fixed name size a, t => ∃ a', t = .fixed name size a' ∧ AttributesAlike a a'
  | .record isError name fields a, t =>
    ∃ fields' a', t = .record isError name fields' a' ∧ FieldsAlike fields fields' ∧
      AttributesAlike a a'
  | .union branches, t => ∃ branches', t = .union branches' ∧ BranchesAlike branches branches'
  | .unchecked node, t => ∃ node', t = .unchecked node' ∧ Reordered .type node node'

def FieldsAlike : List (FieldHead × Schema) → List Field → Prop
  | [], fields => fields = []
  | (f, s) :: rest, fields =>
    ∃ g t rest', fields = (g, t) :: rest' ∧ f.Alike g ∧ s.Alike t ∧ FieldsAlike rest rest'

def BranchesAlike : List Schema → List Schema → Prop
  | [], branches => branches = []
  | s :: rest, branches =>
    ∃ t rest', branches = t :: rest' ∧ s.Alike t ∧ BranchesAlike rest rest'

end

end Schema

end Avro
end StreamTable
