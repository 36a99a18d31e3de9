/-
Descriptors that differ in blanks and in the order of keys.  To the loop each of them is another
schema, and its table writer is told of it.  But the writer goes by the fingerprint, which is the
same for both, so it is kept with its rows and its window, and nothing is committed or acknowledged
for the sake of the other descriptor.
-/
import StreamTable.Proofs.Avro.Canonical
import StreamTable.Proofs.Json.RoundTrip
import StreamTable.Proofs.Store.Attuned
import StreamTable.Proofs.Store.Deliveries

namespace StreamTable

open StreamTable.Action
open Avro (Reordered)

namespace ActiveSchema

/-! ## Active schemas of nodes that differ in the order of keys -/

/-- Two active schemas that differ in nothing but the order of keys. -/
structure Alike (a a' : ActiveSchema) : Prop where
  node : Reordered .type a.node a'.node
  schema : ∃ s t, a.schema = some s ∧ a'.schema = some t ∧ s.Alike t

variable {a a' : ActiveSchema} {d d' : Option String} {n m : Value}

/-- A node that was taken up is that of the descriptor. -/
theorem activate_node {b : ActiveSchema} (hn : Avro.Descriptor.load d = .ok n)
    (h : b.activate d = .ok a) :
    a.node = n ∧ a.descriptor = d ∧ a.version = b.version + 1 ∧
      ∃ s, a.schema = some s ∧ Avro.Schema.parse n = .ok s := by
  rw [activate_of_load hn] at h
  obtain ⟨s, hs, h⟩ := Except.of_bind_ok h
  obtain ⟨_, -, h⟩ := Except.of_bind_ok h
  obtain ⟨_, -, h⟩ := Except.of_bind_ok h
  cases h
  exact ⟨rfl, rfl, rfl, s, rfl, parse_of_schemaOf hs⟩

theorem Alike.of_parse {s t : Avro.Schema} (h : Reordered .type a.node a'.node)
    (hs : a.schema = some s) (ht : a'.schema = some t) (hparse : Avro.Schema.parse a.node = .ok s)
    (hparse' : Avro.Schema.parse a'.node = .ok t) : Alike a a' := by
  obtain ⟨t', ht', hst⟩ := Avro.Schema.parse_alike h hparse
  obtain rfl := Except.ok.inj (ht'.symm.trans hparse')
  exact ⟨h, s, t', hs, ht, hst⟩

theorem Alike.wrapsIn_eq (h : Alike a a') (fieldName : String) (e : Encoding) :
    a'.wrapsIn fieldName e = a.wrapsIn fieldName e := by
  obtain ⟨s, t, hs, ht, hst⟩ := h.schema
  have hbare : a'.isBare = a.isBare := by
    rw [isBare, isBare, hs, ht, Option.map_some, Option.map_some, Avro.Schema.isRecord_alike hst]
  rw [wrapsIn, wrapsIn, hbare]

theorem Alike.storedIn (h : Alike a a') {x : Option String} {s : Avro.Schema}
    (hs : a.storedIn x = .ok s) : ∃ t, a'.storedIn x = .ok t ∧ s.Alike t := by
  cases x with
  | none =>
    obtain ⟨s', t, hs', ht, hst⟩ := h.schema
    rw [ActiveSchema.storedIn, hs'] at hs
    cases hs
    exact ⟨t, by rw [ActiveSchema.storedIn, ht]; rfl, hst⟩
  | some fieldName =>
    have hwrapping := PlainValue.wrappingNode_reordered h.node fieldName
    obtain ⟨t, ht, hst⟩ := Avro.Schema.parse_alike hwrapping (parse_of_schemaOf hs)
    refine ⟨t, ?_, hst⟩
    rw [ActiveSchema.storedIn, wrapping, Avro.Descriptor.schemaOf, ht]

end ActiveSchema

namespace Store

theorem Writer.updateSchema_run {schema : Avro.Schema} {x : Writer × Disk}
    (h : fingerprintOf schema = .ok x.1.fingerprint) :
    (updateSchema schema).run x = ⟨.ok false, x, []⟩ := by
  rw [updateSchema, run_bind_of_quiet (run_get x), h, run_bind_of_quiet (run_lift _ x),
    bne_self_eq_false]
  rfl

variable {p : Plan} {clock : Readings} {r : Record} {n m : Value} {a₀ : ActiveSchema}

/-- Looking at a descriptor that differs from the active one in the order of keys. -/
theorem observe_alike {a : ActiveSchema} {d : Option String} (hgenuine : a.Genuine)
    (hn : Avro.Descriptor.load a.descriptor = .ok n) (hm : Avro.Descriptor.load d = .ok m)
    (h : Reordered .type n m) (ha₀ : ActiveSchema.none.activate d = .ok a₀) :
    let changed := decide (d ≠ a.descriptor)
    ∃ a', a.observe d = (.ok changed, a') ∧ ActiveSchema.Alike a a' ∧ a'.Genuine ∧
      a'.descriptor = d ∧ a'.version = a.version + (if changed then 1 else 0) := by
  intro changed
  have hpresent : a.isPresent = true := by
    unfold ActiveSchema.isPresent
    cases hd : a.descriptor with
    | none =>
      rw [hd] at hn
      cases hn
    | some text => rfl
  obtain ⟨a₁, ha₁, hschema, hnode⟩ := hgenuine.origin hpresent
  obtain ⟨hnode₁, -, -, s, hs, hparse⟩ := ActiveSchema.activate_node hn ha₁
  rw [hnode₁] at hnode
  rw [hs] at hschema
  by_cases hd : d = a.descriptor
  · have hchanged : changed = false := decide_eq_false (not_not_intro hd)
    have hsame : a.isChanged d = false := by
      rw [ActiveSchema.isChanged, hd, bne_self_eq_false, Bool.or_false, ← Option.not_isSome]
      exact congrArg not hpresent
    obtain rfl := Except.ok.inj (hn.symm.trans (hd ▸ hm))
    have halike : ActiveSchema.Alike a a :=
      .of_parse (by rwa [hnode]) hschema hschema (by rwa [hnode]) (by rwa [hnode])
    rw [hchanged]
    exact ⟨a, ActiveSchema.observe_of_same hsame, halike, hgenuine, hd.symm, rfl⟩
  · have hchanged : changed = true := decide_eq_true hd
    have hother : a.isChanged d = true := by
      rw [ActiveSchema.isChanged, bne_iff_ne.mpr fun he => hd he.symm, Bool.or_true]
    have ha' := ActiveSchema.activate_eq a d
    rw [ha₀] at ha'
    have hobserve := ActiveSchema.observe_of_activate hother ha'
    have hgenuine' := ActiveSchema.observe_genuine hgenuine d
    rw [hobserve] at hgenuine'
    obtain ⟨hnode', hdescriptor, hversion, t, ht, hparse'⟩ :=
      ActiveSchema.activate_node hm ha'
    have halike : ActiveSchema.Alike a { a₀ with version := a.version + 1 } :=
      .of_parse (by rwa [hnode, hnode']) hschema ht (by rwa [hnode]) (by rwa [hnode'])
    rw [hchanged]
    exact ⟨_, hobserve, halike, hgenuine', hdescriptor, hversion⟩

/-- What a record comes to whose descriptor differs from the active one in the order of keys. -/
theorem receive_alike {a : ActiveSchema} (hgenuine : a.Genuine)
    (hn : Avro.Descriptor.load a.descriptor = .ok n) (hm : Avro.Descriptor.load r.descriptor = .ok m)
    (h : Reordered .type n m) (ha₀ : ActiveSchema.none.activate r.descriptor = .ok a₀)
    (fieldName : String) {s : Avro.Schema}
    (hs : a.storedIn (a.wrapsIn fieldName r.encoding) = .ok s) :
    let changed := decide (r.descriptor ≠ a.descriptor)
    ∃ schema active, s.Alike schema ∧ active.descriptor = r.descriptor ∧
      active.version = a.version + (if changed then 1 else 0) ∧
      a.receive fieldName r = ⟨.admitted schema ⟨active.version, a.wrapsIn fieldName r.encoding⟩,
        changed, active⟩ := by
  intro changed
  have hblank : r.isBlank = false :=
    Bool.eq_false_iff.mpr fun hb => ActiveSchema.activate_ne_ok_of_isBlank hb _ _ ha₀
  obtain ⟨a', hobserve, halike, hgenuine', hdescriptor, hversion⟩ :
      ∃ a', a.observe r.descriptor = (.ok changed, a') ∧ _ := observe_alike hgenuine hn hm h ha₀
  obtain ⟨schema, hstored, hschema⟩ := halike.storedIn hs
  have hverdict := ActiveSchema.judge_verdict hgenuine' fieldName changed r
  have hchanged := ActiveSchema.judge_changed a' fieldName changed r
  have hcore := ActiveSchema.judge_core a' fieldName changed r
  rw [halike.wrapsIn_eq, hstored] at hverdict
  rw [ActiveSchema.receive_of_observed hblank hobserve]
  generalize a'.judge fieldName changed r = reception at hverdict hchanged hcore
  obtain ⟨verdict, changed', active⟩ := reception
  have hversion' : active.version = a'.version := ActiveSchema.core_version hcore
  refine ⟨schema, active, hschema, ?_, hversion'.trans hversion, ?_⟩
  · exact (congrArg ActiveSchema.descriptor hcore :).trans hdescriptor
  · rw [hversion']
    obtain rfl : verdict = _ := hverdict
    obtain rfl : changed' = changed := hchanged
    rfl

/-- A record whose descriptor differs from the active one in blanks and in the order of keys alone
is received as a change of the schema, but costs nothing.  The open writer keeps: told of the
schema, it asks for no other, and the loop goes on with the row as if it had not asked at all,
under the same window and with nothing committed or acknowledged since.

The order of keys does not count except where a node has an object for a name, a namespace, the
symbols of an enum or the size of a fixed type. -/
theorem key_order_keeps_writer (storage : List (Value × Value)) (p : Plan)
    (events : List Loop.Event) (d₀ : Disk) (now : Double) (clock : Readings) (r : Record) :
    let b := (backend storage).tracing
    let l := Loop.after p b events (Loop.start ([], d₀) now)
    l.running = true → Avro.Descriptor.load l.active.descriptor = .ok n →
    Avro.Descriptor.load r.descriptor = .ok m → Reordered .type n m →
    ActiveSchema.none.activate r.descriptor = .ok a₀ → l.BoundFor p r →
    let changed := decide (r.descriptor ≠ l.active.descriptor)
    ∃ number w schema binding active,
      l.coordinator.writer = some (number, w) ∧
      (Writer.updateSchema schema).run (w, l.coordinator.world.2) =
        ⟨.ok false, (w, l.coordinator.world.2), []⟩ ∧
      l.active.receive p.fieldName r = ⟨.admitted schema binding, changed, active⟩ ∧
      active.descriptor = r.descriptor ∧
      active.version = l.active.version + (if changed then 1 else 0) ∧
      (Loop.handle p b clock r).run l =
        (Loop.conclude p b clock r schema).run
          (l.adopting changed active number schema binding) := by
  intro b l hrunning hn hm h ha₀ hbound changed
  -- the trace has no part in what the writer is attuned to
  have hmap : l.map Prod.snd Prod.snd = Loop.after p (backend storage) events (Loop.start d₀ now) :=
    Loop.map_after (backend storage).tracing_mirrors events _
  have hattuned : Attuned (l.map Prod.snd Prod.snd) := by
    rw [hmap]
    refine after_attuned events (fun _ => start_attuned d₀ now) ?_
    rw [← hmap]
    exact hrunning
  have hgenuine : l.active.Genuine := hattuned.genuine
  obtain ⟨schema₀, binding₀, hstorage, hbound⟩ := hbound
  rw [Loop.storage_result hgenuine] at hstorage
  obtain ⟨s, hs, hpair⟩ : ∃ s, l.active.storedIn (l.active.wrapsIn p.fieldName r.encoding) = .ok s ∧
      (⟨l.active.version, l.active.wrapsIn p.fieldName r.encoding⟩ : Binding) = binding₀ := by
    cases hs : l.active.storedIn (l.active.wrapsIn p.fieldName r.encoding) with
    | error f =>
      rw [hs] at hstorage
      cases hstorage
    | ok s =>
      rw [hs] at hstorage
      cases hstorage
      exact ⟨_, rfl, rfl⟩
  subst hpair
  obtain ⟨s', hs', f, hf, hfingerprint⟩ := hattuned.fits _ hbound rfl
  obtain rfl := Except.ok.inj (hs'.symm.trans hs)
  obtain ⟨⟨number, w⟩, hw, hwf⟩ : ∃ w, l.coordinator.writer = some w ∧ w.2.fingerprint = f := by
    obtain ⟨w, hw, hwf⟩ := Option.map_eq_some_iff.mp hfingerprint
    obtain ⟨w', hw', rfl⟩ := Option.map_eq_some_iff.mp hw
    exact ⟨w', hw', hwf⟩
  obtain ⟨schema, active, hschema, hdescriptor, hversion, hreceive⟩ :=
    receive_alike hgenuine hn hm h ha₀ p.fieldName hs
  have hkept := Writer.updateSchema_run (x := (w, l.coordinator.world.2))
    ((Writer.fingerprintOf_alike hschema hf).trans (congrArg Except.ok hwf.symm))
  refine ⟨number, w, schema, _, active, hw, hkept, hreceive, hdescriptor, hversion, ?_⟩
  rw [Loop.handle_run hreceive]
  refine Loop.deliver_kept _ active hw hkept ?_
  rw [hbound, hversion, Option.some.injEq, Binding.mk.injEq]
  by_cases hd : r.descriptor = l.active.descriptor
  · simp [hd]
  · simp [hd]

/-! ## Orders whose schema is written another way -/

theorem load_printed {v : Value} (h : Json.Faithful v) :
    Avro.Descriptor.load (Json.print? v) = .ok v := by
  obtain ⟨text, htext, hload⟩ := h.load_print
  rw [htext, hload]

/-- An order of one field, with a schema that is printed from a node. -/
def orderOf (node : Value) : Record := { order with descriptor := Json.print? node }

def orderNode : Value :=
  Value.ofFields [("type", .str "record"), ("name", .str "Order"),
    ("fields", .list [Value.ofFields [("name", .str "id"), ("type", .str "long")]])]

/-- The same with its keys in another order, at every depth. -/
def turnedNode : Value :=
  Value.ofFields [("fields", .list [Value.ofFields [("type", .str "long"), ("name", .str "id")]]),
    ("name", .str "Order"), ("type", .str "record")]

theorem orderNode_faithful : Json.Faithful orderNode := by
  refine .fields _ (by decide) ?_
  simp only [List.forall_mem_cons]
  refine ⟨.str _, .str _, .list _ ?_, List.forall_mem_nil _⟩
  simp only [List.forall_mem_cons]
  refine ⟨.fields _ (by decide) ?_, List.forall_mem_nil _⟩
  simp only [List.forall_mem_cons]
  exact ⟨.str _, .str _, List.forall_mem_nil _⟩

theorem turnedNode_faithful : Json.Faithful turnedNode := by
  refine .fields _ (by decide) ?_
  simp only [List.forall_mem_cons]
  refine ⟨.list _ ?_, .str _, .str _, List.forall_mem_nil _⟩
  simp only [List.forall_mem_cons]
  refine ⟨.fields _ (by decide) ?_, List.forall_mem_nil _⟩
  simp only [List.forall_mem_cons]
  exact ⟨.str _, .str _, List.forall_mem_nil _⟩

theorem orderNode_turned : Reordered .type orderNode turnedNode := by
  have hfield : Reordered .field (Value.ofFields [("name", .str "id"), ("type", .str "long")])
      (Value.ofFields [("name", .str "id"), ("type", .str "long")]) :=
    Avro.EntriesReordered.map (by decide)
      ((Avro.Schema.entry_atom "name" rfl).append (Avro.Schema.entry_atom "type" rfl))
  have hturned := hfield.perm (by decide) (List.reverse_perm _).symm (by simp)
  have hfields := Reordered.cons (p := .fields) (by decide) hturned (.nil (by decide))
  have hnode := Avro.Schema.node_reordered "record" .nil
    ((Avro.Schema.entry_atom "name" (v := .str "Order") rfl).append (.entry "fields" hfields))
  exact hnode.perm (by decide) (List.reverse_perm _).symm (by simp [Value.entry])

/-- The open writer of the first order takes the second one. -/
theorem turned_order_keeps_writer : ∃ p, Plan.ofSettings .default = .ok p ∧
    let b := (backend ordersStorage).tracing
    let l := Loop.after p b [.put (orderOf orderNode), .iterate (.still .zero) .zero]
      (Loop.start ([], .empty) .zero)
    l.running = true ∧ (orderOf turnedNode).descriptor ≠ l.active.descriptor ∧
      l.BoundFor p (orderOf turnedNode) ∧
      ∃ number w schema binding active,
        l.coordinator.writer = some (number, w) ∧
        active.version = l.active.version + 1 ∧
        (Loop.handle p b (.still .zero) (orderOf turnedNode)).run l =
          (Loop.conclude p b (.still .zero) (orderOf turnedNode) schema).run
            (l.adopting true active number schema binding) := by
  have hrun : Except.passes (fun p =>
      let b := (backend ordersStorage).tracing
      let l := Loop.after p b [.put (orderOf orderNode), .iterate (.still .zero) .zero]
        (Loop.start ([], .empty) .zero)
      l.running && l.active.descriptor == Json.print? orderNode &&
        Json.print? turnedNode != Json.print? orderNode &&
        Except.passes (fun _ => true)
          (ActiveSchema.none.activate (orderOf turnedNode).descriptor) &&
        Except.passes (fun x => l.bound == some x.2)
          ((Loop.storage p (orderOf turnedNode)).run l).result)
      (Plan.ofSettings .default) = true := by
    decide +kernel
  obtain ⟨p, hp, hrun⟩ := Except.of_passes hrun
  simp only [Bool.and_eq_true, beq_iff_eq, bne_iff_ne] at hrun
  obtain ⟨⟨⟨⟨hrunning, hfirst⟩, hother⟩, haccepted⟩, hbound⟩ := hrun
  obtain ⟨a₀, ha₀, -⟩ := Except.of_passes haccepted
  obtain ⟨x, hx, hbound⟩ := Except.of_passes hbound
  rw [beq_iff_eq] at hbound
  have hdiffers : (orderOf turnedNode).descriptor ≠ (Loop.after p (backend ordersStorage).tracing
      [.put (orderOf orderNode), .iterate (.still .zero) .zero]
      (Loop.start ([], .empty) .zero)).active.descriptor := by
    rw [hfirst]
    exact hother
  obtain ⟨number, w, schema, binding, active, hw, -, -, -, hversion, hhandle⟩ :=
    key_order_keeps_writer ordersStorage p
      [.put (orderOf orderNode), .iterate (.still .zero) .zero] .empty .zero (.still .zero)
      (orderOf turnedNode) hrunning (by rw [hfirst]; exact load_printed orderNode_faithful)
      (load_printed turnedNode_faithful) orderNode_turned ha₀ ⟨x.1, x.2, hx, hbound⟩
  rw [decide_eq_true hdiffers] at hversion hhandle
  exact ⟨p, hp, hrunning, hdiffers, ⟨x.1, x.2, hx, hbound⟩, number, w, schema, binding, active, hw,
    hversion, hhandle⟩

/-! ## Symbols whose order counts -/

/-- The symbols of an enum, given as the keys of an object. -/
def markNode (first second : String) : Value :=
  Value.ofFields [("type", .str "enum"), ("name", .str "Mark"),
    ("symbols", Value.ofFields [(first, .int 0), (second, .int 0)])]

def markOf (node : Value) : Record where
  descriptor := Json.print? node
  encoding := .json
  payload := .str "\"A\""
  id := .str "a"

theorem markNode_faithful {first second : String} (h : first ≠ second) :
    Json.Faithful (markNode first second) := by
  refine .fields _ (by simp) ?_
  simp only [List.forall_mem_cons]
  refine ⟨.str _, .str _, .fields _ (by simpa using h) ?_, List.forall_mem_nil _⟩
  simp only [List.forall_mem_cons]
  exact ⟨.int _ (by decide +kernel), .int _ (by decide +kernel), List.forall_mem_nil _⟩

theorem markNode_turned {first second : String} (h : first ≠ second) :
    Reordered .data (markNode first second) (markNode second first) := by
  have hsymbols : Reordered .data (Value.ofFields [(first, .int 0), (second, .int 0)])
      (Value.ofFields [(first, .int 0), (second, .int 0)]) :=
    Avro.EntriesReordered.map (by decide)
      ((Avro.Schema.entry_atom first rfl).append (Avro.Schema.entry_atom second rfl))
  have hturned := hsymbols.perm (by decide) (List.reverse_perm _).symm (by simpa using h)
  exact Avro.EntriesReordered.map (by decide) ((Avro.Schema.entry_atom "type" rfl).append
    ((Avro.Schema.entry_atom "name" rfl).append (.entry "symbols" hturned)))

/-- An object that stands for symbols is taken with its keys in their order, so that two
descriptors that differ in nothing but that order cost a writer. -/
theorem symbols_order_costs_writer : ∃ p n m, Plan.ofSettings .default = .ok p ∧
    let b := (backend ordersStorage).tracing
    let r := markOf (markNode "B" "A")
    let l := Loop.after p b [.put (markOf (markNode "A" "B")), .iterate (.still .zero) .zero]
      (Loop.start ([], .empty) .zero)
    l.running = true ∧ Avro.Descriptor.load l.active.descriptor = .ok n ∧
      Avro.Descriptor.load r.descriptor = .ok m ∧ Reordered .data n m ∧
      (∃ a₀, ActiveSchema.none.activate r.descriptor = .ok a₀) ∧ l.BoundFor p r ∧
      l.coordinator.opened = 1 ∧
      ((Loop.handle p b (.still .zero) r).run l).state.coordinator.opened = 2 := by
  have hrun : Except.passes (fun p =>
      let b := (backend ordersStorage).tracing
      let r := markOf (markNode "B" "A")
      let l := Loop.after p b [.put (markOf (markNode "A" "B")), .iterate (.still .zero) .zero]
        (Loop.start ([], .empty) .zero)
      l.running && l.active.descriptor == Json.print? (markNode "A" "B") &&
        Except.passes (fun _ => true) (ActiveSchema.none.activate r.descriptor) &&
        Except.passes (fun x => l.bound == some x.2) ((Loop.storage p r).run l).result &&
        l.coordinator.opened == 1 &&
        ((Loop.handle p b (.still .zero) r).run l).state.coordinator.opened == 2)
      (Plan.ofSettings .default) = true := by
    decide +kernel
  obtain ⟨p, hp, hrun⟩ := Except.of_passes hrun
  simp only [Bool.and_eq_true, beq_iff_eq] at hrun
  obtain ⟨⟨⟨⟨⟨hrunning, hfirst⟩, haccepted⟩, hbound⟩, hopened⟩, hreplaced⟩ := hrun
  obtain ⟨a₀, ha₀, -⟩ := Except.of_passes haccepted
  obtain ⟨x, hx, hbound⟩ := Except.of_passes hbound
  rw [beq_iff_eq] at hbound
  refine ⟨p, markNode "A" "B", markNode "B" "A", hp, hrunning, ?_, ?_,
    markNode_turned (by decide), ⟨a₀, ha₀⟩, ⟨x.1, x.2, hx, hbound⟩, hopened, hreplaced⟩
  · rw [hfirst]
    exact load_printed (markNode_faithful (by decide))
  · exact load_printed (markNode_faithful (by decide))

end Store

end StreamTable
