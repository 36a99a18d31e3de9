/-
Regular stores: those without a tuple at any cell and without a node that has two defaults.  What
is entered into a regular store and what is read out of it is regular, and so are schemas whose
defaults are exchanged for others that are.
-/
import StreamTable.Avro.Document.Store
import StreamTable.Proofs.Avro.Regular

namespace StreamTable
namespace Avro

open Value

namespace Document

/-- A node whose leaf is regular, and that has one default at most. -/
def Node.Regular : Node → Prop
  | .leaf v => v.Regular
  | .list _ => True
  | .map entries => entries.countP (·.1 == "default") ≤ 1

namespace Store

/-- A store that is regular at every cell; there is null where it has no node. -/
def Regular (s : Store) : Prop := ∀ c, (s.node c).Regular

variable {s : Store}

theorem regular_empty : Store.empty.Regular := fun _ => Value.Regular.atom _ rfl

theorem Regular.write (h : s.Regular) (c : Cell) {n : Node} (hn : n.Regular) :
    (s.write c n).Regular := by
  intro c'
  rw [node, Store.write, Array.getElem?_setIfInBounds]
  split
  · split
    · exact hn
    · exact .atom _ rfl
  · exact h c'

theorem Regular.add (h : s.Regular) {n : Node} (hn : n.Regular) : (s.add n).2.Regular := by
  intro c
  rw [node, Store.add, Array.getElem?_push]
  split
  · exact hn
  · exact h c

theorem countP_enterEntries (es : List (Value × Value)) : ∀ s : Store,
    (s.enterEntries es).1.countP (·.1 == "default") = es.countP isDefault := by
  induction es with
  | nil => exact fun _ => rfl
  | cons e es ih =>
    intro s
    have hkey : (e.1.asStr?.getD "" == "default") = isDefault e := by
      obtain ⟨k, v⟩ := e
      cases k <;> rfl
    rw [enterEntries, List.countP_cons, List.countP_cons, hkey]
    exact congrArg (· + _) (ih _)

mutual

theorem Regular.enter : ∀ {v : Value} {s : Store}, s.Regular → v.Regular →
    (s.enter v).2.Regular
  | .list _, _, h, hv => (h.enterItems hv.items).add trivial
  | .map es, s, h, hv => by
    refine (h.enterEntries hv.entries.values).add ?_
    show (s.enterEntries es).1.countP _ ≤ 1
    rw [countP_enterEntries]
    exact hv.entries.defaultOnce
  | .str _, _, h, hv | .null, _, h, hv | .bool _, _, h, hv | .int _, _, h, hv
  | .float _, _, h, hv | .bytes _, _, h, hv | .bytearray _, _, h, hv
  | .date _, _, h, hv | .datetime _, _, h, hv | .time _, _, h, hv
  | .decimal _, _, h, hv | .uuid _, _, h, hv | .tuple _, _, h, hv
  | .set _, _, h, hv => h.add hv

theorem Regular.enterItems : ∀ {xs : List Value} {s : Store}, s.Regular →
    (∀ x ∈ xs, x.Regular) → (s.enterItems xs).2.Regular
  | [], _, h, _ => h
  | x :: _, _, h, hxs =>
    (h.enter (hxs x List.mem_cons_self)).enterItems fun y hy => hxs y (List.mem_cons_of_mem x hy)

theorem Regular.enterEntries : ∀ {es : List (Value × Value)} {s : Store}, s.Regular →
    (∀ e ∈ es, e.2.Regular) → (s.enterEntries es).2.Regular
  | [], _, h, _ => h
  | (k, v) :: _, _, h, hes =>
    (h.enter (hes (k, v) List.mem_cons_self)).enterEntries fun e he =>
      hes e (List.mem_cons_of_mem (k, v) he)

end

/-- What is read out of a regular store is regular. -/
theorem Regular.value (h : s.Regular) : ∀ (depth : Nat) (c : Cell), (s.value depth c).Regular
  | 0, c => Value.Regular.atom _ rfl
  | depth + 1, c => by
    have hc := h c
    rw [Store.value]
    cases hnode : s.node c with
    | leaf v =>
      rw [hnode] at hc
      exact hc
    | list cells =>
      refine .list _ fun x hx => ?_
      obtain ⟨c', -, rfl⟩ := List.mem_map.mp hx
      exact h.value depth c'
    | map entries =>
      rw [hnode] at hc
      refine .map _ ?_ fun e he => ?_
      · rw [List.countP_map]
        exact hc
      · obtain ⟨e', -, rfl⟩ := List.mem_map.mp he
        exact h.value depth e'.2

end Store
end Document

/-! ## Defaults -/

namespace Schema

variable {σ : Type} {f : Value → StateM σ Value} {I : σ → Prop}

theorem withDefault_regular {h : FieldHead} (hh : h.Regular) {d : Value} (hd : d.Regular) :
    FieldHead.Regular { h with attributes := Value.put h.attributes (.str "default") d } := by
  refine ⟨hh.name, hh.entries.put hd, fun e he => ?_⟩
  unfold Value.put at he
  dsimp only at he
  split at he
  · obtain ⟨e', he', rfl⟩ := List.mem_map.mp he
    split
    · exact hh.keys e' he'
    · exact hh.keys e' he'
  · obtain he | he := List.mem_append.mp he
    · exact hh.keys e he
    · rw [List.mem_singleton.mp he]
      exact ⟨rfl, rfl⟩

mutual

/-- A schema stays regular if its defaults are exchanged for regular ones. -/
theorem mapDefaults_regular (hf : ∀ d x, d.Regular → I x → (f d x).1.Regular ∧ I (f d x).2) :
    ∀ {s : Schema} {x : σ}, s.Regular → I x →
    (mapDefaults f s x).1.Regular ∧ I (mapDefaults f s x).2
  | .array items attrs, x, hs, hx => by
    obtain ⟨hitems, hx⟩ := mapDefaults_regular hf hs.2 hx
    exact ⟨⟨hs.1, hitems⟩, hx⟩
  | .map values attrs, x, hs, hx => by
    obtain ⟨hvalues, hx⟩ := mapDefaults_regular hf hs.2 hx
    exact ⟨⟨hs.1, hvalues⟩, hx⟩
  | .record isError name fields attrs, x, hs, hx => by
    obtain ⟨hfields, hx⟩ := mapFieldDefaults_regular hf hs.2 hx
    exact ⟨⟨hs.1, hfields⟩, hx⟩
  | .union branches, x, hs, hx => mapBranchDefaults_regular hf hs hx
  | .primitive _, x, hs, hx | .named _, x, hs, hx | .annotated _ _, x, hs, hx
  | .enum _ _ _, x, hs, hx | .fixed _ _ _, x, hs, hx | .unchecked _, x, hs, hx => ⟨hs, hx⟩

theorem mapBranchDefaults_regular
    (hf : ∀ d x, d.Regular → I x → (f d x).1.Regular ∧ I (f d x).2) :
    ∀ {branches : List Schema} {x : σ}, RegularBranches branches → I x →
    RegularBranches (mapBranchDefaults f branches x).1 ∧ I (mapBranchDefaults f branches x).2
  | [], x, _, hx => ⟨trivial, hx⟩
  | s :: rest, x, hs, hx => by
    obtain ⟨hhead, hx⟩ := mapDefaults_regular hf hs.1 hx
    obtain ⟨hrest, hx⟩ := mapBranchDefaults_regular hf hs.2 hx
    exact ⟨⟨hhead, hrest⟩, hx⟩

theorem mapFieldDefaults_regular
    (hf : ∀ d x, d.Regular → I x → (f d x).1.Regular ∧ I (f d x).2) :
    ∀ {fields : List Field} {x : σ}, RegularFields fields → I x →
    RegularFields (mapFieldDefaults f fields x).1 ∧ I (mapFieldDefaults f fields x).2
  | [], x, _, hx => ⟨trivial, hx⟩
  | (h, s) :: rest, x, hs, hx => by
    rw [mapFieldDefaults]
    cases hd : h.default? with
    | none =>
      obtain ⟨hschema, hx⟩ := mapDefaults_regular hf hs.2.1 hx
      obtain ⟨hrest, hx⟩ := mapFieldDefaults_regular hf hs.2.2 hx
      exact ⟨⟨hs.1, hschema, hrest⟩, hx⟩
    | some d =>
      obtain ⟨hdefault, hx⟩ := hf d x (hs.1.entries.field? hd) hx
      obtain ⟨hschema, hx⟩ := mapDefaults_regular hf hs.2.1 hx
      obtain ⟨hrest, hx⟩ := mapFieldDefaults_regular hf hs.2.2 hx
      exact ⟨⟨withDefault_regular hs.1 hdefault, hschema, hrest⟩, hx⟩

end

variable {s : Schema} {store : Document.Store}

theorem placeDefaults_regular (hs : s.Regular) (hstore : store.Regular) :
    (s.placeDefaults store).1.Regular ∧ (s.placeDefaults store).2.Regular :=
  mapDefaults_regular (I := Document.Store.Regular)
    (fun _ _ hd hx => ⟨.atom _ rfl, hx.enter hd⟩) hs hstore

theorem defaultsIn_regular (hs : s.Regular) (hstore : store.Regular) :
    ∀ d ∈ s.defaultsIn store, d.Regular := by
  intro d hd
  refine (mapDefaults_regular (I := fun ds : List Value => ∀ d ∈ ds, d.Regular)
    (fun d ds hd hds => ⟨hd, fun d' hd' => ?_⟩) hs (fun d hd => by cases hd)).2 d
    (List.mem_reverse.mp hd)
  obtain rfl | hd' := List.mem_cons.mp hd'
  · exact hstore.value _ _
  · exact hds d' hd'

theorem withDefaults_regular {defaults : List Value} (hs : s.Regular)
    (hdefaults : ∀ d ∈ defaults, d.Regular) : (s.withDefaults defaults).Regular := by
  refine (mapDefaults_regular (I := fun ds : List Value => ∀ d ∈ ds, d.Regular)
    (fun d ds hd hds => ?_) hs hdefaults).1
  cases ds with
  | nil => exact ⟨hd, hds⟩
  | cons d' ds =>
    exact ⟨hds d' List.mem_cons_self, fun d hd => hds d (List.mem_cons_of_mem d' hd)⟩

end Schema
end Avro
end StreamTable
