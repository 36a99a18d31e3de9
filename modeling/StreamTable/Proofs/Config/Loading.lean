/-
Loading settings from a text, with an environment on top.  What should come of it is `Closed`: the
settings are refused as such, or they are sound and as they were told.  That is what comes of it
unless the text or a number slips through, and then never.  A text slips through if it holds a value
that cannot be made, no mapping where the settings should be, unknown keys that cannot be put in
order, or a storage that cannot be merged; a number slips through if it is none.
-/
import StreamTable.Proofs.Action.Comes
import StreamTable.Proofs.Config.Told

namespace StreamTable
namespace Settings

open StreamTable.Action (Comes comes_pure comes_fail comes_lift comes_log)

/-! ## Texts -/

/-- The value that holds the settings in a document: what stands under `sink`, or an empty mapping
if that counts as nothing.  There is none if the document is no mapping. -/
def sectionOf? (root : Value) : Option Value :=
  if !root.isTruthy then some (.map [])
  else match root with
    | .map es => some (((Value.field? es "sink").filter Value.isTruthy).getD (.map []))
    | _ => none

/-- The entries that a text holds for the settings. -/
def Given (text : String) (es : List (Value × Value)) : Prop :=
  ∃ root, Yaml.read text = .ok root ∧ sectionOf? root = some (.map es)

/-- The unknown keys can be listed in order. -/
def Listed (es : List (Value × Value)) : Prop :=
  ∃ keys sorted, keysOf (.map es) = .ok keys ∧
    Value.sorted (keys.filter fun key => !isName key) = .ok sorted

/-- A text slips through. -/
inductive Misread (text : String) : Prop
  | unreadable {fault : DataFault} (h : Yaml.read text = .error (.data fault))
  | notMapping {root data : Value} (hroot : Yaml.read text = .ok root)
      (hdata : sectionOf? root = some data) (hmap : ∀ es, data ≠ .map es)
  | unlisted {es : List (Value × Value)} (h : Given text es) (hkeys : ¬Listed es)
  | unmerged {es : List (Value × Value)} (h : Given text es)
      (hstorage : ∀ pairs, ¬Gives (storageGiven es) pairs)

variable {σ : Type} {text : String} {env : Environment} {es : List (Value × Value)}

theorem Given.unique {es' : List (Value × Value)} (h : Given text es) (h' : Given text es') :
    es = es' := by
  obtain ⟨root, hroot, hes⟩ := h
  obtain ⟨root', hroot', hes'⟩ := h'
  obtain rfl : root = root' := Except.ok.inj (hroot.symm.trans hroot')
  exact Value.map.inj (Option.some.inj (hes.symm.trans hes'))

/-! ## Mappings -/

/-- Listing the unknown keys in order. -/
def listing (keys : List Value) : Except Failure Unit :=
  (Value.sorted (keys.filter fun key => !isName key)).mapError Failure.data >>= fun _ => .ok ()

theorem comes_warnOfUnknown (keys : List Value) :
    Comes (warnOfUnknown keys : Action σ Unit) (listing keys) := by
  rw [warnOfUnknown, listing]
  cases keys.filter fun key => !isName key with
  | nil => exact comes_pure ()
  | cons key unknown => exact (comes_lift _).bind fun _ => comes_log _

/-- A mapping may fail over its keys, or over its storage. -/
theorem comes_ofMapping (es : List (Value × Value)) :
    Comes (ofMapping (.map es) : Action σ Settings)
      ((keysOf (.map es)).mapError Failure.data >>= fun keys => listing keys >>= fun _ =>
        (storageOf (storageGiven es)).mapError Failure.data >>= fun storage =>
          .ok { default.withEntries es with storage := storage }) :=
  (comes_lift _).bind fun keys => (comes_warnOfUnknown keys).bind fun _ =>
    (comes_lift _).bind fun _ => comes_pure _

theorem comes_ofMapping_other {data : Value} (h : ∀ es, data ≠ .map es) :
    Comes (ofMapping data : Action σ Settings)
      ((keysOf data).mapError Failure.data >>= fun keys => listing keys >>= fun _ =>
        .error (.data .noSuchAttribute)) := by
  rw [ofMapping]
  · exact (comes_lift _).bind fun keys => (comes_warnOfUnknown keys).bind fun _ => comes_fail _
  · exact h

theorem listing_error {keys : List Value} {f : Failure} (h : listing keys = .error f) :
    ∃ fault, f = .data fault := by
  obtain h | ⟨_, -, h⟩ := Except.of_bind_error h
  · exact Failure.data_of_mapError h
  · cases h

theorem ofMapping_error {data : Value} {f : Failure} {st : σ}
    (h : ((ofMapping data : Action σ Settings).run st).result = .error f) :
    ∃ fault, f = .data fault := by
  by_cases hmap : ∃ es, data = .map es
  · obtain ⟨es, rfl⟩ := hmap
    rw [comes_ofMapping es st] at h
    obtain h | ⟨keys, -, h⟩ := Except.of_bind_error h
    · exact Failure.data_of_mapError h
    obtain h | ⟨_, -, h⟩ := Except.of_bind_error h
    · exact listing_error h
    obtain h | ⟨_, -, h⟩ := Except.of_bind_error h
    · exact Failure.data_of_mapError h
    · cases h
  · rw [comes_ofMapping_other (fun es hes => hmap ⟨es, hes⟩) st] at h
    obtain h | ⟨keys, -, h⟩ := Except.of_bind_error h
    · exact Failure.data_of_mapError h
    obtain h | ⟨_, -, h⟩ := Except.of_bind_error h
    · exact listing_error h
    · cases h
      exact ⟨_, rfl⟩

theorem ofMapping_ok {data : Value} {s : Settings} {st : σ}
    (h : ((ofMapping data : Action σ Settings).run st).result = .ok s) :
    ∃ es pairs, data = .map es ∧ Listed es ∧ Gives (storageGiven es) pairs ∧
      s = ofEntries es pairs := by
  by_cases hmap : ∃ es, data = .map es
  · obtain ⟨es, rfl⟩ := hmap
    rw [comes_ofMapping es st] at h
    obtain ⟨keys, hkeys, h⟩ := Except.of_bind_ok h
    obtain ⟨_, hlisting, h⟩ := Except.of_bind_ok h
    obtain ⟨sorted, hsorted, -⟩ := Except.of_bind_ok hlisting
    obtain ⟨storage, hstorage, h⟩ := Except.of_bind_ok h
    obtain ⟨pairs, hpairs, rfl⟩ := storageOf_ok_iff.mp (Except.ok_of_mapError hstorage)
    exact ⟨es, pairs, rfl, ⟨keys, sorted, Except.ok_of_mapError hkeys,
      Except.ok_of_mapError hsorted⟩, hpairs, (Except.ok.inj h).symm⟩
  · rw [comes_ofMapping_other (fun es hes => hmap ⟨es, hes⟩) st] at h
    obtain ⟨_, -, h⟩ := Except.of_bind_ok h
    obtain ⟨_, -, h⟩ := Except.of_bind_ok h
    cases h

/-- Nothing else may fail in a mapping. -/
theorem ofMapping_isOk {pairs : List (Value × Value)} (hkeys : Listed es)
    (hpairs : Gives (storageGiven es) pairs) (st : σ) :
    ∃ s, ((ofMapping (.map es) : Action σ Settings).run st).result = .ok s := by
  obtain ⟨keys, sorted, hkeys, hsorted⟩ := hkeys
  have hstorage := hpairs.storageOf
  rw [comes_ofMapping es st]
  exact Except.bind_isOk_iff.mpr ⟨keys, congrArg (Except.mapError Failure.data) hkeys,
    Except.bind_isOk_iff.mpr ⟨(), by rw [listing, hsorted]; rfl,
    Except.bind_isOk_iff.mpr ⟨_, congrArg (Except.mapError Failure.data) hstorage, _, rfl⟩⟩⟩

/-! ## Keys that are texts -/

theorem insertInOrder_texts {v : Value} {ws : List Value} (hv : v.isStr = true)
    (hws : ∀ w ∈ ws, w.isStr = true) :
    ∃ sorted, Value.insertInOrder v ws = .ok sorted ∧ ∀ w ∈ sorted, w.isStr = true := by
  induction ws with
  | nil => exact ⟨[v], rfl, List.forall_mem_singleton.mpr hv⟩
  | cons w ws ih =>
    obtain ⟨hw, hrest⟩ := List.forall_mem_cons.mp hws
    obtain ⟨sorted, hsorted, htexts⟩ := ih hrest
    obtain ⟨a, rfl⟩ := Value.eq_str_of_isStr hv
    obtain ⟨b, rfl⟩ := Value.eq_str_of_isStr hw
    rw [Value.insertInOrder, Value.precedes, hsorted]
    cases decide (a < b) with
    | true => exact ⟨_, rfl, List.forall_mem_cons.mpr ⟨rfl, hws⟩⟩
    | false => exact ⟨_, rfl, List.forall_mem_cons.mpr ⟨rfl, htexts⟩⟩

theorem sorted_texts {vs : List Value} (hvs : ∀ v ∈ vs, v.isStr = true) :
    ∃ sorted, Value.sorted vs = .ok sorted := by
  have hfold : ∀ acc : List Value, (∀ w ∈ acc, w.isStr = true) →
      ∃ sorted, vs.foldlM (fun sorted v => Value.insertInOrder v sorted) acc = .ok sorted := by
    induction vs with
    | nil => exact fun acc _ => ⟨acc, rfl⟩
    | cons v vs ih =>
      intro acc hacc
      obtain ⟨hv, hrest⟩ := List.forall_mem_cons.mp hvs
      obtain ⟨acc', hinsert, hacc'⟩ := insertInOrder_texts hv hacc
      obtain ⟨sorted, hsorted⟩ := ih hrest acc' hacc'
      exact ⟨sorted, by rw [List.foldlM_cons, hinsert]; exact hsorted⟩
  exact hfold [] (List.forall_mem_nil _)

theorem mem_distinct {v : Value} {vs : List Value} (h : v ∈ Value.distinct vs) : v ∈ vs := by
  have hfold : ∀ kept : List Value, v ∈ vs.foldl
      (fun kept v => if kept.any v.same then kept else kept ++ [v]) kept → v ∈ kept ∨ v ∈ vs := by
    clear h
    induction vs with
    | nil => exact fun kept h => .inl h
    | cons w vs ih =>
      intro kept h
      obtain h | h := ih _ h
      · dsimp only at h
        split at h
        · exact .inl h
        · obtain h | h := List.mem_append.mp h
          · exact .inl h
          · exact .inr (List.mem_cons.mpr (.inl (List.mem_singleton.mp h)))
      · exact .inr (List.mem_cons_of_mem w h)
  exact (hfold [] h).resolve_left List.not_mem_nil

/-- Keys that are texts can always be listed. -/
theorem listed_of_texts (h : ∀ e ∈ es, e.1.isStr = true) : Listed es := by
  have hkeys : ∀ k ∈ es.map (·.1), k.isStr = true := by
    intro k hk
    obtain ⟨e, he, rfl⟩ := List.mem_map.mp hk
    exact h e he
  have hhashable : (es.map (·.1)).all Value.isHashable = true := by
    refine List.all_eq_true.mpr fun k hk => ?_
    obtain ⟨s, rfl⟩ := Value.eq_str_of_isStr (hkeys k hk)
    rfl
  have hunknown : ∀ k ∈ (Value.distinct (es.map (·.1))).filter fun key => !isName key,
      k.isStr = true := fun k hk => hkeys k (mem_distinct (List.mem_filter.mp hk).1)
  obtain ⟨sorted, hsorted⟩ := sorted_texts hunknown
  exact ⟨_, sorted, if_pos hhashable, hsorted⟩

/-! ## What comes of a text -/

/-- What a text comes to as it is read: settings, a refusal, or a failure of another kind. -/
inductive Read (text : String) : Except Failure Settings → Prop
  | misread {fault : DataFault} (h : Misread text) : Read text (.error (.data fault))
  | refused {fault : ConfigFault} (h : ¬Misread text) (hes : ∀ es, ¬Given text es) :
      Read text (.error (.config fault))
  | settings {es pairs : List (Value × Value)} (h : ¬Misread text) (hes : Given text es)
      (hpairs : Gives (storageGiven es) pairs) : Read text (.ok (ofEntries es pairs))

/-- A text whose settings stand in a mapping is misread only over its keys or its storage. -/
theorem misread_iff (h : Given text es) :
    Misread text ↔ ¬Listed es ∨ ∀ pairs, ¬Gives (storageGiven es) pairs := by
  obtain ⟨root, hroot, hes⟩ := id h
  constructor
  · intro hmis
    cases hmis with
    | unreadable hfault => rw [hroot] at hfault; cases hfault
    | notMapping hroot' hdata hmap =>
      obtain rfl := Except.ok.inj (hroot.symm.trans hroot')
      exact absurd (Option.some.inj (hdata.symm.trans hes)) (hmap es)
    | unlisted h' hkeys => exact .inl (h.unique h' ▸ hkeys)
    | unmerged h' hstorage => exact .inr (h.unique h' ▸ hstorage)
  · rintro (hkeys | hstorage)
    · exact .unlisted h hkeys
    · exact .unmerged h hstorage

theorem ofText_eq {root : Value} (hroot : Yaml.read text = .ok root) :
    (ofText text : Action σ Settings) = match sectionOf? root with
      | some data => ofMapping data
      | none => Action.fail (.config .rootNotMap) := by
  rw [ofText, hroot]
  unfold sectionOf?
  dsimp only
  split
  · rfl
  · cases root <;> rfl

/-- A text without anything that could hold settings is refused, not misread. -/
theorem not_misread (hread : ∀ fault, Yaml.read text ≠ .error (.data fault))
    (hdata : ∀ root data, Yaml.read text = .ok root → sectionOf? root ≠ some data) :
    ¬Misread text ∧ ∀ es, ¬Given text es := by
  have hgiven : ∀ es, ¬Given text es := fun es ⟨root, hroot, hes⟩ => hdata root _ hroot hes
  refine ⟨fun hmis => ?_, hgiven⟩
  cases hmis with
  | unreadable hfault => exact hread _ hfault
  | notMapping hroot hsome => exact hdata _ _ hroot hsome
  | unlisted h => exact hgiven _ h
  | unmerged h => exact hgiven _ h

/-- What stands where the settings should be is misread just if it comes to no settings. -/
theorem ofMapping_read {root data : Value} (hroot : Yaml.read text = .ok root)
    (hdata : sectionOf? root = some data) (st : σ) :
    Read text ((ofMapping data : Action σ Settings).run st).result := by
  cases hresult : ((ofMapping data : Action σ Settings).run st).result with
  | ok s =>
    obtain ⟨es, pairs, rfl, hkeys, hpairs, rfl⟩ := ofMapping_ok hresult
    have hes : Given text es := ⟨root, hroot, hdata⟩
    refine .settings (fun hmis => ?_) hes hpairs
    exact ((misread_iff hes).mp hmis).elim (· hkeys) (· pairs hpairs)
  | error f =>
    obtain ⟨fault, rfl⟩ := ofMapping_error hresult
    refine .misread ?_
    by_cases hmap : ∃ es, data = .map es
    · obtain ⟨es, rfl⟩ := hmap
      refine (misread_iff ⟨root, hroot, hdata⟩).mpr ?_
      by_cases hkeys : Listed es
      · refine .inr fun pairs hpairs => ?_
        obtain ⟨s, hs⟩ := ofMapping_isOk hkeys hpairs st
        rw [hresult] at hs
        cases hs
      · exact .inl hkeys
    · exact .notMapping hroot hdata fun es hes => hmap ⟨es, hes⟩

theorem ofText_read (text : String) (st : σ) :
    Read text ((ofText text : Action σ Settings).run st).result := by
  cases hroot : Yaml.read text with
  | error fault =>
    rw [ofText, hroot]
    cases fault with
    | data fault => exact .misread (.unreadable hroot)
    | malformed =>
      obtain ⟨hmis, hgiven⟩ := @not_misread text (by rw [hroot]; nofun) (by rw [hroot]; nofun)
      exact .refused hmis hgiven
  | ok root =>
    rw [ofText_eq hroot]
    cases hdata : sectionOf? root with
    | some data => exact ofMapping_read hroot hdata st
    | none =>
      have hsection : ∀ root' data, Yaml.read text = .ok root' → sectionOf? root' ≠ some data := by
        intro root' data hroot' hsome
        obtain rfl := Except.ok.inj (hroot.symm.trans hroot')
        rw [hdata] at hsome
        cases hsome
      obtain ⟨hmis, hgiven⟩ := not_misread (by rw [hroot]; nofun) hsection
      exact .refused hmis hgiven

/-! ## Loading -/

/-- A number slips through, or the text. -/
inductive Slips (text : String) (env : Environment) : Prop
  | text (h : Misread text)
  | number {es : List (Value × Value)} {s : Settings} (hes : Given text es) (hs : Told env es s)
      (h : s.Flawed)

/-- What should come of a text and an environment. -/
def Closed (text : String) (env : Environment) (r : Except Failure Settings) : Prop :=
  (∃ fault, r = .error (.config fault)) ∨
    ∃ es s, r = .ok s ∧ Given text es ∧ Told env es s ∧ s.Sound

/-- What comes after the text: the environment and the check. -/
def finish (env : Environment) (s : Settings) : Except Failure Settings :=
  s.withEnvironment env >>= fun s => s.validate >>= fun _ => .ok s

theorem load_result (text : String) (env : Environment) (st : σ) :
    ((load (.file (.ok text)) env : Action σ Settings).run st).result =
      ((ofText text : Action σ Settings).run st).result >>= finish env := by
  have hfinish (s : Settings) : Comes (Action.lift (s.withEnvironment env) >>= fun s =>
      Action.lift s.validate >>= fun _ => pure s : Action σ Settings) (finish env s) :=
    (comes_lift _).bind fun s => (comes_lift _).bind fun _ => comes_pure s
  have hload : (load (.file (.ok text)) env : Action σ Settings) = ofText text >>= fun s =>
      Action.lift (s.withEnvironment env) >>= fun s => Action.lift s.validate >>= fun _ => pure s :=
    rfl
  rw [hload, Action.result_bind hfinish]

theorem Told.flawed {s s' : Settings} (h : Told env es s) (h' : Told env es s') (hs : s.Flawed) :
    s'.Flawed := by
  cases hs with
  | stuck hstuck => exact .stuck (h.thresholds_eq h' ▸ hstuck)
  | nan hok ht hnan =>
    exact .nan ((h.validate_eq h').symm.trans hok) (h.thresholds_eq h' ▸ ht) hnan

/-- With settings that were read, what comes of them is up to the environment and the check. -/
theorem finish_closed_iff {pairs : List (Value × Value)} (h : ¬Misread text) (hes : Given text es)
    (hpairs : Gives (storageGiven es) pairs) :
    Closed text env (finish env (ofEntries es pairs)) ↔ ¬Slips text env := by
  rw [finish]
  cases hs : (ofEntries es pairs).withEnvironment env with
  | error f =>
    obtain ⟨fault, rfl⟩ := withEnvironment_error hs
    refine iff_of_true (.inl ⟨fault, rfl⟩) fun hslips => ?_
    cases hslips with
    | text hmis => exact h hmis
    | number hes' htold =>
      obtain rfl := hes.unique hes'
      obtain ⟨s', hs'⟩ := htold.withEnvironment pairs
      rw [hs] at hs'
      cases hs'
  | ok s =>
    have htold : Told env es s := told_of_withEnvironment hpairs hs
    have hslips : Slips text env ↔ s.Flawed := by
      constructor
      · intro hslips
        cases hslips with
        | text hmis => exact absurd hmis h
        | number hes' htold' hflawed =>
          obtain rfl := hes.unique hes'
          exact htold'.flawed htold hflawed
      · exact .number hes htold
    rw [hslips, ← validate_iff]
    change Closed text env (s.validate >>= fun _ => .ok s) ↔ _
    constructor
    · rintro (⟨fault, hfault⟩ | ⟨es', s', hok, -, -, hsound⟩)
      · obtain hfault | ⟨_, -, hfault⟩ := Except.of_bind_error hfault
        · exact .inl ⟨fault, hfault⟩
        · cases hfault
      · obtain ⟨⟨⟩, hvalidate, hok⟩ := Except.of_bind_ok hok
        cases hok
        exact .inr ⟨hvalidate, hsound⟩
    · rintro (⟨fault, hfault⟩ | ⟨hvalidate, hsound⟩)
      · exact .inl ⟨fault, by rw [hfault]; rfl⟩
      · exact .inr ⟨es, s, by rw [hvalidate]; rfl, hes, htold, hsound⟩

/-- Whatever is loaded is as it was told. -/
theorem told_of_load {s : Settings} {st : σ}
    (h : ((load (.file (.ok text)) env : Action σ Settings).run st).result = .ok s) :
    ∃ es, Given text es ∧ Told env es s := by
  rw [load_result] at h
  obtain ⟨read, hread, h⟩ := Except.of_bind_ok h
  obtain ⟨told, htold, h⟩ := Except.of_bind_ok h
  obtain ⟨⟨⟩, -, h⟩ := Except.of_bind_ok h
  cases h
  have hcomes := ofText_read text st
  rw [hread] at hcomes
  cases hcomes with
  | settings _ hes hpairs => exact ⟨_, hes, told_of_withEnvironment hpairs htold⟩

/-- Settings under keys that are texts, with a storage that can be merged, slip through over a
number alone. -/
theorem slips_of_texts {pairs : List (Value × Value)} (hes : Given text es)
    (hkeys : ∀ e ∈ es, e.1.isStr = true) (hpairs : Gives (storageGiven es) pairs) :
    Slips text env ↔ ∃ s, Told env es s ∧ s.Flawed := by
  constructor
  · intro hslips
    cases hslips with
    | text hmis =>
      obtain hlisted | hstorage := (misread_iff hes).mp hmis
      · exact absurd (listed_of_texts hkeys) hlisted
      · exact absurd hpairs (hstorage pairs)
    | number hes' htold hflawed =>
      obtain rfl := hes.unique hes'
      exact ⟨_, htold, hflawed⟩
  · rintro ⟨s, htold, hflawed⟩
    exact .number hes htold hflawed

/-- Whether a loading failed over data, and not over the settings as such. -/
def failsOverData : Except Failure Settings → Bool
  | .error (.data _) => true
  | _ => false

/-- Whether a loading let NaN pass for a number. -/
def yieldsNaN : Except Failure Settings → Bool
  | .ok s => s.thresholds.any fun t => match t.value with
    | .float x => x.isNaN
    | _ => false
  | .error _ => false

theorem not_closed_of_data {r : Except Failure Settings} (h : failsOverData r = true) :
    ¬Closed text env r := by
  rintro (⟨fault, rfl⟩ | ⟨es, s, rfl, -⟩) <;> cases h

theorem not_closed_of_nan {r : Except Failure Settings} (h : yieldsNaN r = true) :
    ¬Closed text env r := by
  rintro (⟨fault, rfl⟩ | ⟨es, s, rfl, -, -, hsound⟩)
  · cases h
  · obtain ⟨t, ht, hnan⟩ := List.any_eq_true.mp h
    refine ((sound_iff.mp hsound).1 t ht).not_isNaN ?_
    split at hnan
    case h_1 x hx => exact ⟨x, hx, hnan⟩
    case h_2 => cases hnan

/-- What a text and an environment come to, without a state. -/
def loaded (text : String) (env : Environment) : Except Failure Settings :=
  ((load (.file (.ok text)) env : Action Unit Settings).run ()).result

/-- Whether the settings in a document have texts for keys, and a storage that can be merged. -/
def isPlain (root : Value) : Bool :=
  match sectionOf? root with
  | some (.map es) => es.all (·.1.isStr) && Except.passes (fun _ => true) (storageOf (storageGiven es))
  | _ => false

end Settings
end StreamTable
