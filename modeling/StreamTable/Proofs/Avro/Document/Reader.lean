/-
Rows that are read from documents are regular.  The position of a reader is regular if its store,
the names of its grammar and the keys it keeps are.  Every step of the reader keeps that, whether it
succeeds or fails, and what it gives back is regular; so is the row, and so are the defaults that
are left of the schema.
-/
import StreamTable.Avro.Document.Reader
import StreamTable.Proofs.Avro.Document.Grammar
import StreamTable.Proofs.Avro.Document.Store

namespace StreamTable
namespace Avro

open Value

namespace Document

/-- Whether a key that may be set is regular. -/
def RegularKey (key : Option Value) : Prop := ∀ k, key = some k → k.Regular

theorem RegularKey.getD {key : Option Value} (h : RegularKey key) : (key.getD .null).Regular := by
  cases key with
  | none => exact .atom _ rfl
  | some k => exact h k rfl

structure Position.Regular (p : Position) : Prop where
  store : p.store.Regular
  stack : RegularSymbols p.stack
  frames : ∀ f ∈ p.frames, RegularKey f.2
  key : RegularKey p.key

namespace Reader

variable {α β : Type} {x : Reader α} {Q : α → Prop}

/-- A computation keeps positions regular, and its result has a property. -/
def Keeps (x : Reader α) (Q : α → Prop) : Prop :=
  ∀ p : Position, p.Regular →
    (x.run.run p).2.Regular ∧ ∀ a, (x.run.run p).1 = .ok a → Q a

theorem keeps_pure {a : α} (h : Q a) : Keeps (pure a) Q := by
  refine fun p hp => ⟨hp, fun b hb => ?_⟩
  cases hb
  exact h

theorem keeps_throw (fault : DataFault) : Keeps (throw fault : Reader α) Q :=
  fun _ hp => ⟨hp, nofun⟩

theorem keeps_bind {f : α → Reader β} {R : β → Prop} (hx : Keeps x Q)
    (hf : ∀ a, Q a → Keeps (f a) R) : Keeps (x >>= f) R := by
  intro p hp
  obtain ⟨hp', hQ⟩ := hx p hp
  have hrun : (x >>= f).run.run p =
      match (x.run.run p).1 with
      | .ok a => (f a).run.run (x.run.run p).2
      | .error fault => (.error fault, (x.run.run p).2) := by
    show (ExceptT.bindCont f (x.run.run p).1).run (x.run.run p).2 = _
    cases (x.run.run p).1 <;> rfl
  rw [hrun]
  cases hres : (x.run.run p).1 with
  | ok a => exact hf a (hQ a hres) _ hp'
  | error fault => exact ⟨hp', nofun⟩

theorem keeps_ite {c : Prop} [Decidable c] {y : Reader α} (hx : Keeps x Q) (hy : Keeps y Q) :
    Keeps (if c then x else y) Q := by
  split
  · exact hx
  · exact hy

theorem keeps_get : Keeps (get : Reader Position) Position.Regular := by
  refine fun p hp => ⟨hp, fun a ha => ?_⟩
  cases ha
  exact hp

theorem keeps_modify {f : Position → Position} (h : ∀ p : Position, p.Regular → (f p).Regular) :
    Keeps (modify f : Reader Unit) fun _ => True :=
  fun p hp => ⟨h p hp, fun _ _ => trivial⟩

theorem keeps_set {p : Position} (h : p.Regular) : Keeps (set p : Reader Unit) fun _ => True :=
  fun _ _ => ⟨h, fun _ _ => trivial⟩

/-! ## Moves -/

theorem keeps_currentNode : Keeps currentNode Node.Regular :=
  keeps_bind keeps_get fun p hp => keeps_pure (hp.store p.current)

theorem keeps_writeNode (c : Cell) {n : Node} (hn : n.Regular) :
    Keeps (writeNode c n) fun _ => True :=
  keeps_modify fun _ hp => { hp with store := hp.store.write c hn }

theorem keeps_orMissing (d : Option Cell) : Keeps (orMissing d) fun _ => True := by
  cases d with
  | none => exact keeps_throw _
  | some c => exact keeps_pure trivial

theorem keeps_valueCell (d : Option Cell) : Keeps (valueCell d) fun _ => True := by
  refine keeps_bind keeps_get fun p _ => ?_
  split
  · split
    · exact keeps_pure trivial
    · exact keeps_orMissing d
  · exact keeps_pure trivial

theorem keeps_value (d : Option Cell) : Keeps (value d) Value.Regular :=
  keeps_bind (keeps_valueCell d) fun c _ =>
    keeps_bind keeps_get fun _ hp => keeps_pure (hp.store.value _ c)

theorem keeps_push : Keeps push fun _ => True := by
  refine keeps_modify fun p hp => { hp with frames := fun f hf => ?_ }
  obtain rfl | hf := List.mem_cons.mp hf
  · exact hp.key
  · exact hp.frames f hf

theorem keeps_pop : Keeps pop fun _ => True := by
  refine keeps_bind keeps_get fun p hp => ?_
  split
  · rename_i c k rest hframes
    have hin := hframes ▸ hp.frames
    refine keeps_modify fun p' hp' => ?_
    exact { hp' with
      frames := fun f hf => hin f (List.mem_cons_of_mem _ hf)
      key := hin (c, k) List.mem_cons_self }
  · exact keeps_throw _

theorem keeps_goIn (d : Option Cell) : Keeps (goIn d) fun _ => True := by
  have hgo (c : Cell) : Keeps (modify fun p => { p with current := c }) fun _ => True :=
    keeps_modify fun _ hp => { hp with }
  refine keeps_bind keeps_push fun _ _ => keeps_bind keeps_get fun p hp => ?_
  split
  · split
    · exact hgo _
    · exact keeps_bind (keeps_orMissing d) fun c _ => hgo c
  · exact keeps_pure trivial

theorem keeps_clearKey : Keeps clearKey fun _ => True :=
  keeps_modify fun _ hp => { hp with key := nofun }

theorem keeps_pushSymbols {ss : List Symbol} (h : RegularSymbols ss) :
    Keeps (pushSymbols ss) fun _ => True :=
  keeps_modify fun _ hp => { hp with stack := h.append hp.stack }

theorem keeps_pushSymbol {s : Symbol} (h : s.Regular) : Keeps (pushSymbol s) fun _ => True :=
  keeps_pushSymbols (.one h)

theorem keeps_popSymbol : Keeps popSymbol Symbol.Regular := by
  refine keeps_bind keeps_get fun p hp => ?_
  split
  · rename_i s rest hstack
    have hin := hstack ▸ hp.stack
    refine keeps_bind (keeps_modify fun p' hp' => ?_) fun _ _ =>
      keeps_pure (hin s List.mem_cons_self)
    exact { hp' with stack := fun t ht => hin t (List.mem_cons_of_mem s ht) }
  · exact keeps_throw _

theorem keeps_changeKey {key : Option Value} (h : RegularKey key) :
    Keeps (modify fun p => { p with key := key }) fun _ => True :=
  keeps_modify fun _ hp => { hp with key := h }

theorem keeps_setKey {k : Value} (hk : k.Regular) :
    Keeps (modify fun p => { p with key := some k }) fun _ => True :=
  keeps_changeKey fun _ h => Option.some.inj h ▸ hk

theorem keeps_takeKey {key : Option Value} (h : RegularKey key) : Keeps (do
    modify fun p => { p with key := key }
    pure (key.getD .null)) Value.Regular :=
  keeps_bind (keeps_changeKey h) fun _ _ => keeps_pure h.getD

/-! ## Tokens -/

theorem keeps_advance (t : Token) : ∀ fuel, Keeps (advance t fuel) fun _ => True
  | 0 => keeps_throw _
  | fuel + 1 => by
    refine keeps_bind keeps_popSymbol fun top htop => ?_
    cases htop with
    | token t' d =>
      dsimp only
      split
      · exact keeps_pure trivial
      · exact keeps_throw _
    | recordStart d => exact keeps_bind (keeps_goIn d) fun _ _ => keeps_advance t fuel
    | recordEnd => exact keeps_bind keeps_pop fun _ _ => keeps_advance t fuel
    | fieldStart name h => exact keeps_bind (keeps_setKey h) fun _ _ => keeps_advance t fuel
    | fieldEnd => exact keeps_advance t fuel
    | unionEnd => exact keeps_advance t fuel
    | symbols labels => exact keeps_throw _
    | choice labels branches d h => exact keeps_throw _
    | sequence parts h => exact keeps_bind (keeps_pushSymbols h) fun _ _ => keeps_advance t fuel
    | repeated stop parts h =>
      dsimp only
      split
      · exact keeps_pure trivial
      · exact keeps_bind (keeps_pushSymbols (.append h (.one (.repeated stop parts h))))
          fun _ _ => keeps_advance t fuel
    | root start h =>
      exact keeps_bind (keeps_pushSymbols (.cons h (.one (.root start h))))
        fun _ _ => keeps_advance t fuel

theorem keeps_ask (t : Token) : Keeps (ask t) fun _ => True := keeps_advance t _

theorem keeps_drain : ∀ fuel, Keeps (drain fuel) fun _ => True
  | 0 => keeps_throw _
  | fuel + 1 => by
    refine keeps_bind keeps_popSymbol fun top htop => ?_
    cases htop with
    | token t d => exact keeps_throw _
    | recordStart d => exact keeps_bind (keeps_goIn d) fun _ _ => keeps_drain fuel
    | recordEnd => exact keeps_bind keeps_pop fun _ _ => keeps_drain fuel
    | fieldStart name h => exact keeps_bind (keeps_setKey h) fun _ _ => keeps_drain fuel
    | fieldEnd => exact keeps_drain fuel
    | unionEnd => exact keeps_drain fuel
    | symbols labels => exact keeps_throw _
    | choice labels branches d h => exact keeps_throw _
    | sequence parts h => exact keeps_bind (keeps_pushSymbols h) fun _ _ => keeps_drain fuel
    | repeated stop parts h =>
      exact keeps_bind (keeps_pushSymbols (.append h (.one (.repeated stop parts h))))
        fun _ _ => keeps_drain fuel
    | root start h => exact keeps_pushSymbol (.root start h)

/-! ## Parts of values -/

theorem keeps_bytesOf (v : Value) : Keeps (bytesOf v) Value.Regular := by
  unfold bytesOf
  split
  · split
    · exact keeps_pure (.atom _ rfl)
    · exact keeps_throw _
  · exact keeps_throw _

theorem keeps_text : Keeps text Value.Regular := by
  refine keeps_bind (keeps_ask _) fun d _ => keeps_bind keeps_get fun p _ => ?_
  split
  · refine keeps_bind (keeps_ask _) fun _ _ => keeps_bind keeps_get fun p hp => ?_
    refine keeps_takeKey fun k hk => ?_
    split at hk
    · cases hk
      exact .str _
    · cases hk
      exact hp.store.value _ _
    · obtain ⟨c, -, rfl⟩ := Option.map_eq_some_iff.mp hk
      exact .str _
    · exact hp.key k hk
  · exact keeps_value d

theorem keeps_isNullCell (c : Cell) : Keeps (isNullCell c) fun _ => True := by
  refine keeps_bind keeps_get fun p _ => ?_
  split
  · exact keeps_pure trivial
  · exact keeps_pure trivial

theorem keeps_takeLast (c : Cell) : Keeps (takeLast c) fun _ => True := by
  refine keeps_bind keeps_get fun p hp => ?_
  have hc := hp.store c
  split
  · rename_i entries hnode
    rw [hnode] at hc
    split
    · rename_i last before hentries
      refine keeps_bind (keeps_writeNode c ?_) fun _ _ => keeps_pure trivial
      have hsplit : entries = before.reverse ++ [last] := by
        rw [← List.reverse_reverse entries, hentries, List.reverse_cons]
      rw [hsplit] at hc
      exact Nat.le_trans (List.sublist_append_left _ _).countP_le hc
    · exact keeps_throw _
  · exact keeps_throw _

/-- An entry that is added under a key that was not found is no second default. -/
theorem regular_append {entries : List (String × Cell)} {key : Value}
    (hentries : (Node.map entries).Regular) (hkey : cellUnder? entries key = none) (c : Cell) :
    (Node.map (entries ++ [(key.asStr?.getD "", c)])).Regular := by
  show List.countP _ _ ≤ 1
  rw [List.countP_append]
  cases key with
  | str k =>
    by_cases hk : k = "default"
    · have hnone : entries.countP (·.1 == "default") = 0 := by
        rw [← hk]
        exact List.countP_eq_zero.mpr
          (List.find?_eq_none.mp (Option.map_eq_none_iff.mp hkey))
      rw [hnone, Nat.zero_add]
      exact List.countP_le_length
    · have hentries : entries.countP (·.1 == "default") ≤ 1 := hentries
      simpa [List.countP_cons, asStr?, hk] using hentries
  | _ => exact hentries

theorem keeps_unionCell (labels : List (Option String)) (d : Option Cell)
    {entries : List (String × Cell)} (hentries : (Node.map entries).Regular) (key : Value) :
    Keeps (unionCell labels d entries key) fun _ => True := by
  have hadd (hkey : cellUnder? entries key = none) (first : String) : Keeps (do
      let d ← orMissing d
      let p ← get
      let added := p.store.add (.map [(first, d)])
      let k := key.asStr?.getD ""
      set { p with store := added.2.write p.current (.map (entries ++ [(k, added.1)])) }
      pure added.1) fun _ => True := by
    refine keeps_bind (keeps_orMissing d) fun d _ => keeps_bind keeps_get fun p hp => ?_
    have hsingle : (Node.map [(first, d)]).Regular := List.countP_le_length
    exact keeps_bind (keeps_set { hp with
      store := (hp.store.add hsingle).write _ (regular_append hentries hkey _) }) fun _ _ =>
        keeps_pure trivial
  unfold unionCell
  split
  · exact keeps_pure trivial
  · rename_i hkey
    split
    · exact hadd hkey _
    · exact keeps_throw _
    · exact keeps_throw _

theorem keeps_setUnder (key : Value) (c : Cell) : Keeps (setUnder key c) fun _ => True := by
  refine keeps_bind keeps_get fun p hp => ?_
  have hc := hp.store p.current
  split
  · rename_i entries hnode
    rw [hnode] at hc
    refine keeps_writeNode _ ?_
    have hkeys : (fun e : String × Cell => e.1 == "default") ∘
        (fun e => if key.isText e.1 then (e.1, c) else e) = fun e => e.1 == "default" := by
      funext e
      by_cases he : key.isText e.1 = true <;> simp [he]
    show List.countP _ _ ≤ 1
    rw [List.countP_map, hkeys]
    exact hc
  · exact keeps_pure trivial

theorem keeps_choose {branches : List Symbol} (h : RegularSymbols branches)
    (labels : List (Option String)) (label : String) : Keeps (do
      match labels.findIdx? (· == some label) with
      | none => throw .wrongValue
      | some i =>
        match branches[i]? with
        | some s => pushSymbol s
        | none => throw .badIndex
        pure i) fun _ => True := by
  split
  · exact keeps_throw _
  · split
    · rename_i s hs
      exact keeps_bind (keeps_pushSymbol (h s (List.mem_of_getElem? hs))) fun _ _ =>
        keeps_pure trivial
    · exact keeps_bind (keeps_throw _) fun (_ : PUnit) (_ : True) => keeps_pure trivial

theorem keeps_branch : Keeps branch fun _ => True := by
  unfold branch
  refine keeps_bind (keeps_ask _) fun _ _ => keeps_bind keeps_popSymbol fun top htop => ?_
  cases htop with
  | choice labels branches d h =>
    have hunionEnd := keeps_pushSymbol .unionEnd
    refine keeps_bind keeps_get fun p hp => ?_
    have hc := hp.store p.current
    dsimp only
    split
    · rename_i entries key hnode hkey
      rw [hnode] at hc
      refine keeps_bind (keeps_unionCell labels d hc key) fun c _ =>
        keeps_bind (keeps_isNullCell c) fun null _ => keeps_ite (keeps_choose h labels _) ?_
      exact keeps_bind (keeps_takeLast c) fun e _ => keeps_bind (keeps_setUnder key e.2) fun _ _ =>
        keeps_bind hunionEnd fun _ _ => keeps_choose h labels e.1
    · refine keeps_bind (keeps_isNullCell _) fun null _ => keeps_ite (keeps_choose h labels _) ?_
      refine keeps_bind (keeps_takeLast _) fun e _ => ?_
      exact keeps_bind (keeps_modify fun _ hp => { hp with }) fun _ _ =>
        keeps_bind hunionEnd fun _ _ => keeps_choose h labels e.1
  | _ => exact keeps_throw _

theorem keeps_size : Keeps size fun _ => True := by
  refine keeps_bind keeps_currentNode fun n _ => ?_
  split
  · exact keeps_pure trivial
  · exact keeps_pure trivial
  · exact keeps_pure trivial
  · exact keeps_throw _

theorem keeps_takeFirst : Keeps takeFirst fun _ => True := by
  refine keeps_bind keeps_currentNode fun n _ => ?_
  split
  · exact keeps_bind keeps_get fun p _ =>
      keeps_bind (keeps_writeNode _ (n := .list _) trivial) fun _ _ => keeps_pure trivial
  · exact keeps_throw _
  · exact keeps_throw _
  · exact keeps_throw _

theorem keeps_firstKey : Keeps firstKey fun _ => True := by
  refine keeps_bind keeps_get fun p _ => ?_
  split <;> exact keeps_pure trivial

theorem keeps_remove (key : Value) : Keeps (remove key) fun _ => True := by
  refine keeps_bind keeps_get fun p hp => ?_
  have hc := hp.store p.current
  split
  · rename_i entries hnode
    rw [hnode] at hc
    split
    · exact keeps_writeNode _ (Nat.le_trans List.filter_sublist.countP_le hc)
    · exact keeps_throw _
  · split
    · exact keeps_ite (keeps_writeNode _ (n := .list _) trivial) (keeps_throw _)
    · exact keeps_throw _
  · exact keeps_throw _

theorem keeps_convert {r : Except DataFault Value} (h : ∀ v, r = .ok v → v.Regular) :
    Keeps (convert r) Value.Regular := by
  cases r with
  | ok v => exact keeps_pure (h v rfl)
  | error fault => exact keeps_throw _

theorem keeps_items {item : Reader Value} (hitem : Keeps item Value.Regular) :
    ∀ fuel, Keeps (items item fuel) fun xs => ∀ x ∈ xs, x.Regular
  | 0 => keeps_pure (List.forall_mem_nil _)
  | fuel + 1 => by
    refine keeps_bind keeps_size fun n _ => keeps_ite (keeps_pure (List.forall_mem_nil _)) ?_
    refine keeps_bind keeps_push fun _ _ => keeps_bind keeps_takeFirst fun c _ => ?_
    refine keeps_bind (keeps_modify fun _ hp => { hp with }) fun _ _ => ?_
    refine keeps_bind hitem fun v hv => keeps_bind keeps_pop fun _ _ => ?_
    refine keeps_bind (keeps_ask _) fun _ _ => ?_
    refine keeps_bind (keeps_items hitem fuel) fun rest hrest => keeps_pure fun x hx => ?_
    obtain rfl | hx := List.mem_cons.mp hx
    · exact hv
    · exact hrest x hx

theorem keeps_entries {item : Reader Value} (hitem : Keeps item Value.Regular) :
    ∀ (fuel : Nat) {acc : List (Value × Value)}, RegularEntries acc →
      Keeps (entries item fuel acc) RegularEntries
  | 0, acc, hacc => keeps_pure hacc
  | fuel + 1, acc, hacc => by
    refine keeps_bind keeps_size fun n _ => keeps_ite (keeps_pure hacc) ?_
    refine keeps_bind keeps_push fun _ _ => keeps_bind keeps_firstKey fun first _ => ?_
    refine keeps_bind keeps_text fun key _ => keeps_bind hitem fun v hv => ?_
    have hrest : Keeps (do pop; remove first; entries item fuel (Value.put acc key v))
        RegularEntries :=
      keeps_bind keeps_pop fun _ _ => keeps_bind (keeps_remove first) fun _ _ =>
        keeps_entries hitem fuel (hacc.put hv)
    exact keeps_ite (keeps_bind (keeps_throw _) fun (_ : PUnit) (_ : True) => hrest) hrest

theorem keeps_member {xs : List Value} (hxs : ∀ x ∈ xs, x.Regular) (label : Value) : Keeps (do
      match xs.find? (label.same ·) with
      | some v => pure v
      | none => throw .wrongValue) Value.Regular := by
  split
  · rename_i v hv
    exact keeps_pure (hxs v (List.mem_of_find?_eq_some hv))
  · exact keeps_throw _

theorem keeps_symbolOf {symbols : Value} (hsymbols : symbols.Regular) (label : Value) :
    Keeps (symbolOf symbols label) Value.Regular := by
  cases symbols with
  | str t =>
    cases label with
    | str s =>
      unfold symbolOf
      dsimp only
      split
      · rename_i v hv
        obtain ⟨i, -, hi⟩ := Option.bind_eq_some_iff.mp hv
        obtain ⟨c, -, rfl⟩ := Option.map_eq_some_iff.mp hi
        exact keeps_pure (.str _)
      · exact keeps_throw _
    | _ => exact keeps_throw _
  | map es => exact keeps_throw _
  | set xs => exact keeps_throw _
  | list xs => exact keeps_member hsymbols.items label
  | tuple xs => exact absurd hsymbols Value.Regular.not_tuple
  | bytes b => exact keeps_member (regular_numbers b) label
  | bytearray b => exact keeps_member (regular_numbers b) label
  | _ => exact keeps_throw _

theorem keeps_primitive (p : Primitive) : Keeps (primitive p) Value.Regular := by
  have hplain (p : Primitive) : Keeps (do
      let d ← askPrimitive p
      value d) Value.Regular :=
    keeps_bind (keeps_ask _) fun d _ => keeps_value d
  cases p with
  | string => exact keeps_text
  | bytes =>
    exact keeps_bind (keeps_ask _) fun d _ => keeps_bind (keeps_value d) fun v _ =>
      keeps_bytesOf v
  | _ => exact hplain _

end Reader
end Document

namespace Logical

variable {v w : Value}

theorem timestamp_regular {micros : Int} {offset : Option Offset}
    (h : timestamp micros offset = .ok w) : w.Regular := by
  unfold timestamp at h
  split at h
  · cases h
    exact .atom _ rfl
  · cases h

theorem clockOf_regular {hour minute second micro : Int}
    (h : clockOf hour minute second micro = .ok w) : w.Regular := by
  unfold clockOf at h
  split at h
  · cases h
  · split at h
    · cases h
    · split at h
      · cases h
        exact .atom _ rfl
      · cases h

theorem clockOfMillis_regular {x : Double} (h : clockOfMillis x = .ok w) : w.Regular := by
  unfold clockOfMillis at h
  split at h
  · cases h
  · split at h
    · cases h
    · exact clockOf_regular h

/-- What a raw value stands for holds no others. -/
theorem convert_regular {l : Logical} {attrs : Attributes} (h : l.convert attrs v = .ok w) :
    w.Regular := by
  cases l with
  | date =>
    unfold convert at h
    dsimp only at h
    split at h
    · cases h
    · split at h
      · cases h
      · split at h
        · cases h
          exact .atom _ rfl
        · cases h
  | timeMillis =>
    unfold convert at h
    dsimp only at h
    split at h
    · exact clockOfMillis_regular h
    · split at h
      · exact clockOf_regular h
      · cases h
  | timeMicros =>
    unfold convert at h
    dsimp only at h
    split at h
    · exact clockOf_regular h
    · cases h
  | timestampMillis | timestampMicros | localTimestampMillis | localTimestampMicros =>
    obtain ⟨n, -, h⟩ := Except.of_bind_ok h
    exact timestamp_regular h
  | decimal =>
    cases v with
    | bytes b =>
      obtain ⟨scale, -, h⟩ := Except.of_bind_ok h
      obtain ⟨precision, -, h⟩ := Except.of_bind_ok h
      dsimp only at h
      split at h
      · cases h
      · split at h
        · cases h
        · cases h
          exact .atom _ rfl
    | _ => cases h
  | uuid =>
    unfold convert at h
    dsimp only at h
    split at h
    · split at h
      · cases h
        exact .atom _ rfl
      · cases h
    · cases h
    · cases h

end Logical

namespace Document
namespace Reader

variable {resolve : String → Reader Value}

mutual

theorem keeps_readWith (hresolve : ∀ name, Keeps (resolve name) Value.Regular) :
    ∀ {s : Schema}, s.Regular → Keeps (readWith resolve s) Value.Regular
  | .primitive p, _ => keeps_primitive p
  | .named name, _ => hresolve name
  | .annotated p attrs, _ => by
    refine keeps_bind (keeps_primitive p) fun v hv => ?_
    split
    · exact keeps_convert fun w hw => Logical.convert_regular hw
    · exact keeps_pure hv
  | .array items attrs, hs => by
    refine keeps_bind (keeps_ask _) fun d _ => keeps_bind (keeps_goIn d) fun _ _ => ?_
    refine keeps_bind keeps_clearKey fun _ _ => keeps_bind keeps_size fun n _ => ?_
    refine keeps_bind (keeps_items (keeps_readWith hresolve hs.2) n) fun xs hxs => ?_
    exact keeps_bind (keeps_ask _) fun _ _ => keeps_bind keeps_pop fun _ _ =>
      keeps_pure (.list xs hxs)
  | .map values attrs, hs => by
    refine keeps_bind (keeps_ask _) fun d _ => keeps_bind (keeps_goIn d) fun _ _ => ?_
    refine keeps_bind keeps_clearKey fun _ _ => keeps_bind keeps_size fun n _ => ?_
    refine keeps_bind (keeps_entries (keeps_readWith hresolve hs.2) n .nil) fun es hes => ?_
    exact keeps_bind (keeps_ask _) fun _ _ => keeps_bind keeps_pop fun _ _ =>
      keeps_pure hes.map
  | .enum name symbols attrs, hs => by
    refine keeps_bind (keeps_ask _) fun d _ => keeps_bind keeps_popSymbol fun _ _ => ?_
    exact keeps_bind (keeps_value d) fun v _ => keeps_symbolOf hs.2 v
  | .fixed name size attrs, _ => by
    refine keeps_bind (keeps_ask _) fun d _ => keeps_bind (keeps_value d) fun v _ => ?_
    refine keeps_bind (keeps_bytesOf v) fun b hb => keeps_ite ?_ (keeps_pure hb)
    exact keeps_convert fun w hw => Logical.convert_regular hw
  | .record isError name fields attrs, hs =>
    keeps_bind (keeps_readFields hresolve hs.2 .nil) fun _ hrow => keeps_pure hrow.map
  | .union branches, hs =>
    keeps_bind keeps_branch fun i _ => keeps_readBranch hresolve hs i
  | .unchecked node, _ => keeps_throw _

theorem keeps_readFields (hresolve : ∀ name, Keeps (resolve name) Value.Regular) :
    ∀ {fields : List Field} {row : List (Value × Value)}, Schema.RegularFields fields →
    RegularEntries row → Keeps (readFields resolve fields row) RegularEntries
  | [], row, _, hrow => keeps_pure hrow
  | (f, s) :: rest, row, hs, hrow => by
    refine keeps_bind (keeps_readWith hresolve hs.2.1) fun v hv => ?_
    have hrest := keeps_readFields hresolve hs.2.2 (hrow.put (k := f.name) hv)
    exact keeps_ite (keeps_bind (keeps_throw _) fun (_ : PUnit) (_ : True) => hrest) hrest

theorem keeps_readBranch (hresolve : ∀ name, Keeps (resolve name) Value.Regular) :
    ∀ {branches : List Schema}, Schema.RegularBranches branches → ∀ i,
    Keeps (readBranch resolve branches i) Value.Regular
  | [], _, _ => keeps_throw _
  | _ :: _, hs, 0 => keeps_readWith hresolve hs.1
  | _ :: _, hs, i + 1 => keeps_readBranch hresolve hs.2 i

end

theorem keeps_read {t : Schema} (ht : t.Regular) (fuel : Nat) : ∀ {s : Schema}, s.Regular →
    Keeps (read (.of t) fuel s) Value.Regular := by
  induction fuel with
  | zero => exact fun _ => keeps_throw _
  | succ fuel ih =>
    refine fun hs => keeps_readWith (fun name => ?_) hs
    cases hd : (Definitions.of t).find? name with
    | none => exact keeps_throw _
    | some s => exact ih (Schema.inherited_regular.find? ht hd)

end Reader

/-- The row of a regular document is regular, and so are the defaults that reading it leaves. -/
theorem readRow_regular {s : Schema} (hs : s.Regular) {document : Value}
    (hdocument : document.Regular) :
    (∀ row, (readRow s document).1 = .ok row → row.Regular) ∧
      ∀ d ∈ (readRow s document).2, d.Regular := by
  have hnull : (Store.empty.add (.leaf .null)).2.Regular := Store.regular_empty.add (.atom _ rfl)
  obtain ⟨hplaced, hstore⟩ := Schema.placeDefaults_regular hs hnull
  have hstart := hstore.enter hdocument
  unfold readRow
  dsimp only
  split
  · exact ⟨nofun, Schema.defaultsIn_regular hplaced hstart⟩
  · rename_i symbol hsymbol
    have hgrammar := Grammar.of_regular hplaced hsymbol
    have hread : Reader.Keeps (do
        let v ← Reader.read (.of (s.placeDefaults (Store.empty.add (.leaf .null)).2).1) maxNesting
          (s.placeDefaults (Store.empty.add (.leaf .null)).2).1
        Reader.drain Reader.maxSteps
        pure v) Value.Regular :=
      Reader.keeps_bind (Reader.keeps_read hplaced _ hplaced) fun v hv =>
        Reader.keeps_bind (Reader.keeps_drain _) fun _ _ => Reader.keeps_pure hv
    have hposition (c : Cell) : Position.Regular ⟨_, [symbol, .root symbol], [], c, none⟩ :=
      ⟨hstart, .cons hgrammar (.one (.root _ hgrammar)), nofun, nofun⟩
    obtain ⟨hp, hrow⟩ := hread _ (hposition _)
    exact ⟨hrow, Schema.defaultsIn_regular hplaced hp.store⟩

end Document
end Avro
end StreamTable
