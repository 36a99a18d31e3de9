/-
What is told of settings, by a mapping and by an environment on top of it.  `Told` says for each
setting where its value comes from; nothing else in the mapping is spoken of.  Storage settings are
merged key by key.  An environment either is refused, for an integer that is none, or gives settings
as they are told (`withEnvironment_error`, `told_of_withEnvironment`).
-/
import StreamTable.Config.Source
import StreamTable.Proofs.Action.Results
import StreamTable.Proofs.Config.Thresholds
import StreamTable.Proofs.Value.Merging

namespace StreamTable

namespace Settings

/-! ## What is told -/

section Told

variable (env : Environment) (es : List (Value × Value))

/-- A number: the integer in a variable if that is set, or else what the mapping gives, or else the
usual one. -/
inductive ToldNumber (name key : String) (usual : Int) : Value → Prop
  | environment {raw : String} {n : Int} (h : env.get? name = some raw)
      (hn : Number.readInt? raw.toList = some n) : ToldNumber name key usual (.int n)
  | mapping {v : Value} (h : env.get? name = none) (hv : Value.field? es key = some v) :
      ToldNumber name key usual v
  | usual (h : env.get? name = none) (hv : Value.field? es key = none) :
      ToldNumber name key usual (.int usual)

/-- A text: that of a variable if it counts, or else what the mapping gives, or else the usual
one. -/
def toldText (said : Option Value) (key usual : String) : Value :=
  said.getD ((Value.field? es key).getD (.str usual))

/-- What a variable says of a storage setting. -/
def storageVariable (key : String) : Option Value :=
  if key = "table" then text? env "LAKESINK_TABLE"
  else if key = "base_dir" then text? env "LAKESINK_BASE_DIR"
  else none

/-- Storage settings, key by key: what a variable says, or else what was given, or else what is
usual.  Keys that are no texts are as they were given. -/
structure ToldStorage (given storage : List (Value × Value)) : Prop where
  texts : ∀ key, Value.field? storage key =
    (storageVariable env key).or ((Value.field? given key).or (Value.field? defaultStorage key))
  others : Value.others storage = Value.others given

/-- The entries of storage settings: of a mapping, or of a list of keys and values; what counts as
nothing gives none. -/
inductive Gives : Value → List (Value × Value) → Prop
  | nothing {v : Value} (h : v.isTruthy = false) : Gives v []
  | map {es : List (Value × Value)} (h : (Value.map es).isTruthy = true) : Gives (.map es) es
  | pairs {v : Value} {items : List Value} {pairs : List (Value × Value)} (h : v.isTruthy = true)
      (hmap : ∀ es, v ≠ .map es) (hitems : v.elements? = some items)
      (hpairs : items.mapM pairOf = .ok pairs) : Gives v pairs

/-- What the mapping holds for the storage, null if nothing. -/
def storageGiven : Value := (Value.field? es "storage").getD .null

/-- Settings are as they are told. -/
structure Told (s : Settings) : Prop where
  maxCommitInterval : ToldNumber env es "LAKESINK_MAX_COMMIT_INTERVAL" "max_commit_interval" 120
    s.maxCommitInterval
  maxRecordsPerCommit : ToldNumber env es "LAKESINK_MAX_RECORDS_PER_COMMIT"
    "max_records_per_commit" 10000000 s.maxRecordsPerCommit
  maxCommitFailedTimes : ToldNumber env es "LAKESINK_MAX_COMMIT_FAILED_TIMES"
    "max_commit_failed_times" 5 s.maxCommitFailedTimes
  queueSize : ToldNumber env es "LAKESINK_QUEUE_SIZE" "queue_size" 10000 s.queueSize
  pollTimeoutMs : ToldNumber env es "LAKESINK_POLL_TIMEOUT_MS" "poll_timeout_ms" 100
    s.pollTimeoutMs
  overrideFieldName : s.overrideFieldName =
    toldText es ((env.get? "LAKESINK_OVERRIDE_FIELD_NAME").map .str) "override_field_name" ""
  sinkName : s.sinkName = toldText es (text? env "LAKESINK_SINK_NAME") "sink_name" "lakesink"
  storage : ∃ pairs, Gives (storageGiven es) pairs ∧
    ToldStorage env (Value.putAll [] pairs) s.storage

end Told

variable {env : Environment} {es : List (Value × Value)} {s s' : Settings}

/-! ## The storage -/

section StorageOf

variable {v : Value} {storage : List (Value × Value)}

theorem storageOf_nothing (h : v.isTruthy = false) : storageOf v = .ok defaultStorage := by
  unfold storageOf
  simp [h]

theorem storageOf_map {es : List (Value × Value)} (h : (Value.map es).isTruthy = true) :
    storageOf (.map es) = .ok (Value.putAll defaultStorage es) := by
  simp [storageOf, h]

theorem storageOf_items {items : List Value} (h : v.isTruthy = true) (hmap : ∀ es, v ≠ .map es)
    (hitems : v.elements? = some items) :
    storageOf v = items.mapM pairOf >>= fun pairs => .ok (Value.putAll defaultStorage pairs) := by
  rw [storageOf, h, hitems]
  · rfl
  · exact hmap

theorem storageOf_atom (h : v.isTruthy = true) (hmap : ∀ es, v ≠ .map es)
    (hitems : v.elements? = none) : storageOf v = .error .wrongType := by
  rw [storageOf, h, hitems]
  · rfl
  · exact hmap

theorem Gives.storageOf {pairs : List (Value × Value)} (h : Gives v pairs) :
    storageOf v = .ok (Value.putAll defaultStorage pairs) := by
  cases h with
  | nothing h => exact storageOf_nothing h
  | map h => exact storageOf_map h
  | pairs h hmap hitems hpairs =>
    rw [storageOf_items h hmap hitems, hpairs]
    rfl

theorem storageOf_ok_iff : storageOf v = .ok storage ↔
    ∃ pairs, Gives v pairs ∧ storage = Value.putAll defaultStorage pairs := by
  constructor
  · intro h
    by_cases htruthy : v.isTruthy = true
    · by_cases hmap : ∃ es, v = .map es
      · obtain ⟨es, rfl⟩ := hmap
        exact ⟨es, .map htruthy, Except.ok.inj (h.symm.trans (storageOf_map htruthy))⟩
      · have hmap : ∀ es, v ≠ .map es := fun es h => hmap ⟨es, h⟩
        cases hitems : v.elements? with
        | none => rw [storageOf_atom htruthy hmap hitems] at h; cases h
        | some items =>
          rw [storageOf_items htruthy hmap hitems] at h
          obtain ⟨pairs, hpairs, h⟩ := Except.of_bind_ok h
          exact ⟨pairs, .pairs htruthy hmap hitems hpairs, (Except.ok.inj h).symm⟩
    · rw [Bool.not_eq_true] at htruthy
      exact ⟨[], .nothing htruthy, Except.ok.inj (h.symm.trans (storageOf_nothing htruthy))⟩
  · rintro ⟨pairs, hgives, rfl⟩
    exact hgives.storageOf

end StorageOf

theorem field?_putStorage (name key : String) (storage : List (Value × Value)) (k : String) :
    Value.field? (putStorage env name key storage) k =
      (if k = key then text? env name else none).or (Value.field? storage k) := by
  rw [putStorage]
  by_cases hk : k = key
  · subst hk
    cases text? env name with
    | none => simp
    | some v => simp [Value.field?_put_same]
  · cases text? env name with
    | none => simp
    | some v => simp [Value.field?_put_other _ _ hk, hk]

theorem others_putStorage (name key : String) (storage : List (Value × Value)) :
    Value.others (putStorage env name key storage) = Value.others storage := by
  rw [putStorage]
  cases text? env name with
  | none => rfl
  | some v => exact Value.others_put storage (.str key) v

theorem told_storage (pairs : List (Value × Value)) :
    ToldStorage env (Value.putAll [] pairs) (putStorage env "LAKESINK_TABLE" "table"
      (putStorage env "LAKESINK_BASE_DIR" "base_dir" (Value.putAll defaultStorage pairs))) where
  texts key := by
    rw [field?_putStorage, field?_putStorage, Value.field?_putAll, ← Option.or_assoc,
      storageVariable]
    congr 1
    by_cases htable : key = "table"
    · subst htable
      simp
    · simp [htable]
  others := by
    rw [others_putStorage, others_putStorage]
    have husual : Value.others defaultStorage = Value.others [] := rfl
    exact Value.others_putAll husual pairs

/-! ## Numbers -/

theorem integer?_ok_iff {name key : String} {usual : Int} {v : Value} :
    integer? env name ((Value.field? es key).getD (.int usual)) = .ok v ↔
      ToldNumber env es name key usual v := by
  rw [integer?]
  constructor
  · intro h
    split at h
    case h_1 hname =>
      cases hkey : Value.field? es key with
      | none => rw [hkey] at h; cases h; exact .usual hname hkey
      | some v' => rw [hkey] at h; cases h; exact .mapping hname hkey
    case h_2 raw hname =>
      split at h
      case h_1 n hn => cases h; exact .environment hname hn
      case h_2 => cases h
  · intro h
    cases h with
    | environment h hn => rw [h]; dsimp only; rw [hn]
    | mapping h hv => rw [h, hv]; rfl
    | usual h hv => rw [h, hv]; rfl

theorem integer?_error {name : String} {otherwise : Value} {f : Failure}
    (h : integer? env name otherwise = .error f) : ∃ fault, f = .config fault := by
  rw [integer?] at h
  split at h
  case h_1 => cases h
  case h_2 =>
    split at h
    case h_1 => cases h
    case h_2 => cases h; exact ⟨_, rfl⟩

/-! ## The environment -/

/-- The settings of a mapping with its storage merged, before the environment. -/
def ofEntries (es pairs : List (Value × Value)) : Settings :=
  { default.withEntries es with storage := Value.putAll defaultStorage pairs }

variable {pairs : List (Value × Value)}

theorem told_of_withEnvironment (hgives : Gives (storageGiven es) pairs)
    (h : (ofEntries es pairs).withEnvironment env = .ok s) : Told env es s := by
  obtain ⟨interval, hinterval, h⟩ := Except.of_bind_ok h
  obtain ⟨records, hrecords, h⟩ := Except.of_bind_ok h
  obtain ⟨failures, hfailures, h⟩ := Except.of_bind_ok h
  obtain ⟨queue, hqueue, h⟩ := Except.of_bind_ok h
  obtain ⟨poll, hpoll, h⟩ := Except.of_bind_ok h
  cases h
  exact ⟨integer?_ok_iff.mp hinterval, integer?_ok_iff.mp hrecords, integer?_ok_iff.mp hfailures,
    integer?_ok_iff.mp hqueue, integer?_ok_iff.mp hpoll, rfl, rfl, pairs, hgives,
    told_storage pairs⟩

/-- Settings that are told are not refused for an integer that is none. -/
theorem Told.withEnvironment (h : Told env es s) (pairs : List (Value × Value)) :
    ∃ s', (ofEntries es pairs).withEnvironment env = .ok s' :=
  Except.bind_isOk_iff.mpr ⟨_, integer?_ok_iff.mpr h.maxCommitInterval,
    Except.bind_isOk_iff.mpr ⟨_, integer?_ok_iff.mpr h.maxRecordsPerCommit,
    Except.bind_isOk_iff.mpr ⟨_, integer?_ok_iff.mpr h.maxCommitFailedTimes,
    Except.bind_isOk_iff.mpr ⟨_, integer?_ok_iff.mpr h.queueSize,
    Except.bind_isOk_iff.mpr ⟨_, integer?_ok_iff.mpr h.pollTimeoutMs, _, rfl⟩⟩⟩⟩⟩

theorem withEnvironment_error {f : Failure} (h : s.withEnvironment env = .error f) :
    ∃ fault, f = .config fault := by
  obtain h | ⟨_, -, h⟩ := Except.of_bind_error h
  · exact integer?_error h
  obtain h | ⟨_, -, h⟩ := Except.of_bind_error h
  · exact integer?_error h
  obtain h | ⟨_, -, h⟩ := Except.of_bind_error h
  · exact integer?_error h
  obtain h | ⟨_, -, h⟩ := Except.of_bind_error h
  · exact integer?_error h
  obtain h | ⟨_, -, h⟩ := Except.of_bind_error h
  · exact integer?_error h
  cases h

/-! ## What is told decides the check -/

theorem ToldNumber.unique {name key : String} {usual : Int} {v v' : Value}
    (h : ToldNumber env es name key usual v) (h' : ToldNumber env es name key usual v') : v = v' :=
  Except.ok.inj ((integer?_ok_iff.mpr h).symm.trans (integer?_ok_iff.mpr h'))

/-- A text that no variable speaks of is in the storage as it is where the storage is merged. -/
theorem Told.field?_storage (h : Told env es s) {key : String}
    (hkey : storageVariable env key = none) :
    ∃ storage, storageOf (storageGiven es) = .ok storage ∧
      Value.field? s.storage key = Value.field? storage key := by
  obtain ⟨pairs, hgives, htold⟩ := h.storage
  refine ⟨_, hgives.storageOf, ?_⟩
  rw [htold.texts, hkey, Value.field?_putAll defaultStorage]
  rfl

theorem Told.thresholds_eq (h : Told env es s) (h' : Told env es s') :
    s.thresholds = s'.thresholds := by
  rw [thresholds, thresholds, h.maxCommitInterval.unique h'.maxCommitInterval,
    h.maxRecordsPerCommit.unique h'.maxRecordsPerCommit,
    h.maxCommitFailedTimes.unique h'.maxCommitFailedTimes, h.queueSize.unique h'.queueSize,
    h.pollTimeoutMs.unique h'.pollTimeoutMs]

theorem Told.validate_eq (h : Told env es s) (h' : Told env es s') : s.validate = s'.validate := by
  have htype : storageVariable env "type" = none := rfl
  obtain ⟨storage, hstorage, hfield⟩ := h.field?_storage htype
  obtain ⟨storage', hstorage', hfield'⟩ := h'.field?_storage htype
  obtain rfl : storage = storage' := Except.ok.inj (hstorage.symm.trans hstorage')
  rw [Settings.validate_eq, Settings.validate_eq, h.thresholds_eq h', storageSetting,
    storageSetting, hfield, hfield']

end Settings
end StreamTable
