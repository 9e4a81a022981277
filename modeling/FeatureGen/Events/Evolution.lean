import FeatureGen.Events.JsonSchema
import FeatureGen.Lib.Checks
import FeatureGen.Lib.KeySort
import FeatureGen.Lib.Table

/-! # The event-schema registry

`EventSchemaRegistry` of `events/registry.py`: schemas by type and version, stepwise
upcasters, the load-time check of an evolution, and `load_stream` of
`events/store.py`, which brings stored events to the versions their reader expects.

`assert_evolution_complete` asks for upcasters between versions that are not backward
compatible, and `upcast` asks for them between all. A registry that passes the check
never misses one when reading exactly if the compatible bumps have them as well.
-/

namespace FeatureGen.EventSchemas

variable {β ε : Type}

/-- An entry of `_schemas`. -/
structure SchemaEntry where
  typeName : String
  version : ℤ
  schema : Schema

def SchemaEntry.key (entry : SchemaEntry) : String × ℤ := (entry.typeName, entry.version)

/-- An entry of `_upcasters`; it may raise. -/
structure UpcasterEntry (β ε : Type) where
  typeName : String
  fromVersion : ℤ
  upcaster : β → Except ε β

def UpcasterEntry.key (entry : UpcasterEntry β ε) : String × ℤ :=
  (entry.typeName, entry.fromVersion)

/-- `EventSchemaRegistry`, over bodies of type `β` and what upcasters raise. -/
structure Registry (β ε : Type) where
  schemas : Table SchemaEntry.key
  upcasters : Table (UpcasterEntry.key (β := β) (ε := ε))

namespace Registry

def empty : Registry β ε where
  schemas := .empty
  upcasters := .empty

def registerSchema (reg : Registry β ε) (typeName : String) (version : ℤ) (schema : Schema) :
    Registry β ε :=
  { reg with
    schemas := reg.schemas.upsert ⟨typeName, version, schema⟩
      (fun entry => { entry with schema := schema }) fun _ => rfl }

/-- `register_upcaster`; none for the `ValueError` of an upcaster that is not stepwise. -/
def registerUpcaster (reg : Registry β ε) (typeName : String) (fromVersion toVersion : ℤ)
    (upcaster : β → Except ε β) : Option (Registry β ε) :=
  if toVersion = fromVersion + 1 then
    some
      { reg with
        upcasters := reg.upcasters.upsert ⟨typeName, fromVersion, upcaster⟩
          (fun entry => { entry with upcaster := upcaster }) fun _ => rfl }
  else none

/-- `_upcasters.get((type_name, version))`. -/
def step? (reg : Registry β ε) (typeName : String) (version : ℤ) : Option (β → Except ε β) :=
  (reg.upcasters.get? (typeName, version)).map (·.upcaster)

/-- `_schemas.get((type_name, version))`. -/
def schema? (reg : Registry β ε) (typeName : String) (version : ℤ) : Option Schema :=
  (reg.schemas.get? (typeName, version)).map (·.schema)

end Registry

inductive UpcastError (ε : Type) where
  /-- `cannot downcast {type_name} {from_version}->{to_version}` -/
  | downcast (typeName : String) (fromVersion toVersion : ℤ)
  /-- `missing upcaster {type_name} {version}->{version + 1}` -/
  | missing (typeName : String) (version : ℤ)
  /-- What an upcaster raised. -/
  | raised (error : ε)

/-- The loop of `upcast`, over that many steps. -/
def Registry.upcastSteps (reg : Registry β ε) (typeName : String) :
    ℕ → ℤ → β → Except (UpcastError ε) β
  | 0, _, body => .ok body
  | steps + 1, version, body =>
      match reg.step? typeName version with
      | none => .error (.missing typeName version)
      | some step =>
          match step body with
          | .error error => .error (.raised error)
          | .ok next => reg.upcastSteps typeName steps (version + 1) next

def Registry.upcast (reg : Registry β ε) (typeName : String) (body : β)
    (fromVersion toVersion : ℤ) : Except (UpcastError ε) β :=
  if toVersion < fromVersion then .error (.downcast typeName fromVersion toVersion)
  else reg.upcastSteps typeName (toVersion - fromVersion).toNat fromVersion body

inductive EvolutionError where
  /-- `breaking schema bump {type_name} v{prev}->v{nxt} requires a stepwise upcaster {type_name}
      v{step}->v{step + 1}` -/
  | breaking (typeName : String) (previous next step : ℤ)
  /-- What the comparison raised: `TypeError`. -/
  | unhashable

/-- `range(start, stop)`. -/
def versionRange (start stop : ℤ) : List ℤ :=
  (List.range (stop - start).toNat).map fun n : ℕ => start + n

/-- The first of the steps between two versions that has no upcaster. -/
def Registry.checkSteps (reg : Registry β ε) (typeName : String) (previous next : ℤ) :
    Except EvolutionError Unit :=
  match (versionRange previous next).find? fun step => (reg.step? typeName step).isNone with
  | none => .ok ()
  | some step => .error (.breaking typeName previous next step)

/-- `is_backward_compatible` of two registered versions. -/
def Registry.compatible (reg : Registry β ε) (typeName : String) (previous next : ℤ) :
    Option Bool :=
  match reg.schema? typeName previous, reg.schema? typeName next with
  | some oldSchema, some newSchema => isBackwardCompatible oldSchema newSchema
  | _, _ => none

/-- The loop over `zip(versions, versions[1:])`. -/
def Registry.checkVersions (reg : Registry β ε) (typeName : String) :
    List ℤ → Except EvolutionError Unit
  | [] => .ok ()
  | previous :: versions =>
      match versions.head? with
      | none => .ok ()
      | some next =>
          match reg.compatible typeName previous next with
          | none => .error .unhashable
          | some true => reg.checkVersions typeName versions
          | some false =>
              match reg.checkSteps typeName previous next with
              | .error error => .error error
              | .ok _ => reg.checkVersions typeName versions

def Registry.versionsOf (reg : Registry β ε) (typeName : String) : List ℤ :=
  KeySort.sortBy id
    ((reg.schemas.rows.filter fun entry => entry.typeName = typeName).map (·.version))

def Registry.typeNames (reg : Registry β ε) : List String :=
  (reg.schemas.rows.map (·.typeName)).eraseDups

def Registry.assertEvolutionComplete (reg : Registry β ε) : Except EvolutionError Unit :=
  reg.typeNames.forM fun typeName => reg.checkVersions typeName (reg.versionsOf typeName)

/-- A row of `events`, as `row_to_event` reads it. -/
structure StoredEvent (β : Type) where
  aggregate : String
  aggregateId : String
  streamVersion : ℤ
  globalSeq : ℤ
  type : String
  schemaVersion : ℤ
  payload : β

/-- The event at the version its reader expects. `expected` is empty where it is not given. -/
def Registry.readEvent (reg : Registry β ε) (expected : List (String × ℤ))
    (event : StoredEvent β) : Except (UpcastError ε) (StoredEvent β) :=
  match expected.lookup event.type with
  | none => .ok event
  | some target =>
      if target = event.schemaVersion then .ok event
      else
        (reg.upcast event.type event.payload event.schemaVersion target).map fun payload =>
          { event with payload := payload, schemaVersion := target }

/-- `load_stream` over the rows of `events`. -/
def Registry.loadStream (reg : Registry β ε) (events : List (StoredEvent β))
    (aggregate aggregateId : String) (uptoSeq : Option ℤ) (expected : List (String × ℤ)) :
    Except (UpcastError ε) (List (StoredEvent β)) :=
  (KeySort.sortBy (·.streamVersion) (events.filter fun event =>
    event.aggregate = aggregate ∧ event.aggregateId = aggregateId ∧
      uptoSeq.all fun seq => decide (event.globalSeq ≤ seq))).mapM (reg.readEvent expected)

end FeatureGen.EventSchemas

namespace FeatureGen.EventSchemas

variable {β ε : Type}

def Registry.Registered (reg : Registry β ε) (typeName : String) (version : ℤ) : Prop :=
  ∃ entry ∈ reg.schemas, entry.typeName = typeName ∧ entry.version = version

/-- No read between registered versions misses an upcaster. -/
structure NeverMissing (reg : Registry β ε) : Prop where
  upcast : ∀ typeName a b, reg.Registered typeName a → reg.Registered typeName b → a ≤ b →
    ∀ body typeName' version,
      reg.upcast typeName body a b ≠ .error (.missing typeName' version)
  loadStream : ∀ events aggregate aggregateId uptoSeq expected,
    (∀ event ∈ events, ∀ b, expected.lookup event.type = some b →
      reg.Registered event.type event.schemaVersion ∧ reg.Registered event.type b ∧
        event.schemaVersion ≤ b) →
    ∀ typeName version, reg.loadStream events aggregate aggregateId uptoSeq expected ≠
      .error (.missing typeName version)

/-- Two registered versions with none between them. -/
structure Consecutive (reg : Registry β ε) (typeName : String) (previous next : ℤ) : Prop where
  lower : reg.Registered typeName previous
  upper : reg.Registered typeName next
  lt : previous < next
  between : ∀ version, reg.Registered typeName version → version ≤ previous ∨ next ≤ version

/-- The upcasters carry the body from one version to another. -/
inductive Carried (reg : Registry β ε) (typeName : String) (start : ℤ) (body : β) : ℤ → β → Prop
  | here : Carried reg typeName start body start body
  | step {version : ℤ} {current next : β} {upcaster : β → Except ε β}
      (h : Carried reg typeName start body version current)
      (known : reg.step? typeName version = some upcaster) (run : upcaster current = .ok next) :
      Carried reg typeName start body (version + 1) next

/-- Between backward compatible versions too, every step that some body is carried to has an
    upcaster. -/
def Stepwise (reg : Registry β ε) : Prop :=
  ∀ typeName previous next, Consecutive reg typeName previous next →
    reg.compatible typeName previous next = some true →
      ∀ body version current, Carried reg typeName previous body version current →
        version < next → (reg.step? typeName version).isSome = true

section Check

variable {reg : Registry β ε} {typeName : String}

theorem mem_versionRange {start stop version : ℤ} :
    version ∈ versionRange start stop ↔ start ≤ version ∧ version < stop := by
  rw [versionRange, List.mem_map]
  constructor
  · intro h
    obtain ⟨n, hn, eq⟩ := h
    have := List.mem_range.mp hn
    omega
  · intro h
    refine ⟨(version - start).toNat, List.mem_range.mpr ?_, ?_⟩
    · omega
    · omega

theorem checkSteps_ok {previous next : ℤ} (h : reg.checkSteps typeName previous next = .ok ())
    {version : ℤ} (low : previous ≤ version) (high : version < next) :
    (reg.step? typeName version).isSome = true := by
  unfold Registry.checkSteps at h
  cases hfind : (versionRange previous next).find? fun step =>
      (reg.step? typeName step).isNone with
  | none =>
      have known := List.find?_eq_none.mp hfind version (mem_versionRange.mpr ⟨low, high⟩)
      simpa [Option.isSome_iff_ne_none] using known
  | some step =>
      rw [hfind] at h
      simp at h

/-- What the check has established of two versions in a row. -/
def Bumps (reg : Registry β ε) (typeName : String) (previous next : ℤ) : Prop :=
  reg.compatible typeName previous next = some true ∨
    ∀ version, previous ≤ version → version < next →
      (reg.step? typeName version).isSome = true

theorem checkVersions_ok {versions : List ℤ}
    (h : reg.checkVersions typeName versions = .ok ()) {before after : List ℤ}
    {previous next : ℤ} (split : versions = before ++ previous :: next :: after) :
    Bumps reg typeName previous next := by
  induction versions generalizing before with
  | nil => simp at split
  | cons first versions ih =>
      rw [Registry.checkVersions] at h
      cases hhead : versions.head? with
      | none =>
          rw [List.head?_eq_none_iff.mp hhead] at split
          cases before with
          | nil => simp at split
          | cons _ before => simp at split
      | some second =>
          rw [hhead] at h
          dsimp only at h
          have rest : Bumps reg typeName first second ∧
              reg.checkVersions typeName versions = .ok () := by
            cases hcompat : reg.compatible typeName first second with
            | none =>
                rw [hcompat] at h
                simp at h
            | some verdict =>
                rw [hcompat] at h
                cases verdict with
                | true => exact ⟨Or.inl hcompat, h⟩
                | false =>
                    cases hsteps : reg.checkSteps typeName first second with
                    | error error =>
                        rw [hsteps] at h
                        simp at h
                    | ok _ =>
                        rw [hsteps] at h
                        exact ⟨Or.inr fun version low high => checkSteps_ok hsteps low high, h⟩
          cases before with
          | nil =>
              obtain ⟨hfirst, hversions⟩ := List.cons.inj split
              rw [hversions, List.head?_cons] at hhead
              rw [← hfirst, Option.some.inj hhead]
              exact rest.1
          | cons _ before => exact ih rest.2 (List.cons.inj split).2

theorem exists_split_of_sorted {l : List ℤ} (sorted : l.Pairwise (· < ·)) {a b : ℤ}
    (ha : a ∈ l) (hb : b ∈ l) (lt : a < b) (between : ∀ x ∈ l, x ≤ a ∨ b ≤ x) :
    ∃ before after, l = before ++ a :: b :: after := by
  obtain ⟨before, rest, split⟩ := List.append_of_mem ha
  rw [split] at sorted hb between
  obtain ⟨_, tail, across⟩ := List.pairwise_append.mp sorted
  have above := (List.pairwise_cons.mp tail).1
  cases rest with
  | nil =>
      cases List.mem_append.mp hb with
      | inl hb =>
          have := across b hb a List.mem_cons_self
          omega
      | inr hb =>
          have := List.mem_singleton.mp hb
          omega
  | cons c after =>
      have next : c = b := by
        have low := above c List.mem_cons_self
        have high := between c (by simp)
        by_contra ne
        have later : b ∈ after := by
          cases List.mem_append.mp hb with
          | inl hb =>
              have := across b hb a List.mem_cons_self
              omega
          | inr hb =>
              cases List.mem_cons.mp hb with
              | inl eq => omega
              | inr hb => exact List.mem_of_ne_of_mem (Ne.symm ne) hb
        have := (List.pairwise_cons.mp (List.pairwise_cons.mp tail).2).1 b later
        omega
      rw [next] at split
      exact ⟨before, after, split⟩

theorem mem_versionsOf {version : ℤ} :
    version ∈ reg.versionsOf typeName ↔ reg.Registered typeName version := by
  rw [Registry.versionsOf, KeySort.mem_sortBy, List.mem_map]
  constructor
  · intro h
    obtain ⟨entry, hentry, eq⟩ := h
    obtain ⟨mem, type⟩ := List.mem_filter.mp hentry
    exact ⟨entry, mem, of_decide_eq_true type, eq⟩
  · intro h
    obtain ⟨entry, hentry, type, eq⟩ := h
    exact ⟨entry, List.mem_filter.mpr ⟨hentry, decide_eq_true type⟩, eq⟩

theorem versionsOf_sorted : (reg.versionsOf typeName).Pairwise (· < ·) := by
  have nodup : (reg.versionsOf typeName).Nodup := by
    rw [Registry.versionsOf, (KeySort.perm_sortBy _ _).nodup_iff]
    have keys := reg.schemas.keys_nodup.sublist
      ((List.filter_sublist (p := fun entry => decide (entry.typeName = typeName))).map
        SchemaEntry.key)
    rw [List.nodup_map_iff_inj_on (List.Nodup.of_map _ keys)]
    intro e he e' he' same
    have type := of_decide_eq_true (List.mem_filter.mp he).2
    have type' := of_decide_eq_true (List.mem_filter.mp he').2
    apply List.inj_on_of_nodup_map keys he he'
    rw [SchemaEntry.key, SchemaEntry.key, type, type', same]
  apply ((KeySort.pairwise_sortBy id _).and nodup).imp
  intro a b h
  exact lt_of_le_of_ne h.1 h.2

theorem bumps_of_complete (complete : reg.assertEvolutionComplete = .ok ()) {previous next : ℤ}
    (h : Consecutive reg typeName previous next) : Bumps reg typeName previous next := by
  have known : typeName ∈ reg.typeNames := by
    obtain ⟨entry, hentry, type, _⟩ := h.lower
    rw [Registry.typeNames, List.mem_eraseDups]
    exact List.mem_map.mpr ⟨entry, hentry, type⟩
  have checked := Checks.forM_eq_ok.mp complete typeName known
  obtain ⟨before, after, split⟩ := exists_split_of_sorted versionsOf_sorted
    (mem_versionsOf.mpr h.lower) (mem_versionsOf.mpr h.upper) h.lt
    fun version hversion => h.between version (mem_versionsOf.mp hversion)
  exact checkVersions_ok checked split

theorem exists_consecutive {a b version : ℤ} (ha : reg.Registered typeName a)
    (hb : reg.Registered typeName b) (low : a ≤ version) (high : version < b) :
    ∃ previous next, Consecutive reg typeName previous next ∧ a ≤ previous ∧
      previous ≤ version ∧ version < next := by
  classical
  have below : ((reg.versionsOf typeName).toFinset.filter (· ≤ version)).Nonempty := by
    refine ⟨a, Finset.mem_filter.mpr ⟨?_, low⟩⟩
    exact List.mem_toFinset.mpr (mem_versionsOf.mpr ha)
  have above : ((reg.versionsOf typeName).toFinset.filter (version < ·)).Nonempty := by
    refine ⟨b, Finset.mem_filter.mpr ⟨?_, high⟩⟩
    exact List.mem_toFinset.mpr (mem_versionsOf.mpr hb)
  obtain ⟨previous, hprevious, greatest⟩ := Finset.exists_max_image _ id below
  obtain ⟨next, hnext, least⟩ := Finset.exists_min_image _ id above
  obtain ⟨known, atMost⟩ := Finset.mem_filter.mp hprevious
  obtain ⟨known', beyond⟩ := Finset.mem_filter.mp hnext
  refine ⟨previous, next, ?_, ?_, atMost, beyond⟩
  · constructor
    · exact mem_versionsOf.mp (List.mem_toFinset.mp known)
    · exact mem_versionsOf.mp (List.mem_toFinset.mp known')
    · exact lt_of_le_of_lt atMost beyond
    · intro other hother
      have listed := List.mem_toFinset.mpr (mem_versionsOf.mpr hother)
      by_cases le : other ≤ version
      · exact Or.inl (greatest other (Finset.mem_filter.mpr ⟨listed, le⟩))
      · exact Or.inr (least other (Finset.mem_filter.mpr ⟨listed, not_le.mp le⟩))
  · apply greatest a
    exact Finset.mem_filter.mpr ⟨List.mem_toFinset.mpr (mem_versionsOf.mpr ha), low⟩

end Check

section Carry

variable {reg : Registry β ε} {typeName : String} {start version : ℤ} {body current : β}

theorem Carried.le (h : Carried reg typeName start body version current) : start ≤ version := by
  induction h with
  | here => exact le_refl _
  | step _ _ _ ih => omega

theorem Carried.head {upcaster : β → Except ε β} {next : β}
    (known : reg.step? typeName start = some upcaster) (run : upcaster body = .ok next)
    (h : Carried reg typeName (start + 1) next version current) :
    Carried reg typeName start body version current := by
  induction h with
  | here => exact .step .here known run
  | step _ known' run' ih => exact .step ih known' run'

theorem Carried.onward (h : Carried reg typeName start body version current) {middle : ℤ}
    (low : start ≤ middle) (high : middle ≤ version) :
    ∃ there, Carried reg typeName middle there version current := by
  induction h with
  | here =>
      have eq : middle = start := le_antisymm high low
      exact ⟨body, eq ▸ .here⟩
  | @step version current next upcaster h known run ih =>
      by_cases last : middle ≤ version
      · obtain ⟨there, onward⟩ := ih last
        exact ⟨there, .step onward known run⟩
      · have eq : middle = version + 1 := by omega
        exact ⟨next, eq ▸ .here⟩

theorem upcastSteps_of_carried (h : Carried reg typeName start body version current) (more : ℕ) :
    reg.upcastSteps typeName ((version - start).toNat + more) start body =
      reg.upcastSteps typeName more version current := by
  induction h generalizing more with
  | here => simp
  | @step version current next upcaster h known run ih =>
      have le := h.le
      have steps : (version + 1 - start).toNat + more = (version - start).toNat + (more + 1) := by
        omega
      rw [steps, ih (more + 1), Registry.upcastSteps, known]
      dsimp only
      rw [run]

theorem carried_of_missing {steps : ℕ} {typeName' : String}
    (h : reg.upcastSteps typeName steps start body = .error (.missing typeName' version)) :
    version < start + steps ∧ reg.step? typeName version = none ∧
      ∃ current, Carried reg typeName start body version current := by
  induction steps generalizing start body with
  | zero => simp [Registry.upcastSteps] at h
  | succ steps ih =>
      rw [Registry.upcastSteps] at h
      cases known : reg.step? typeName start with
      | none =>
          rw [known] at h
          simp only [Except.error.injEq, UpcastError.missing.injEq] at h
          rw [← h.2]
          exact ⟨by omega, known, body, .here⟩
      | some upcaster =>
          rw [known] at h
          dsimp only at h
          cases run : upcaster body with
          | error error =>
              rw [run] at h
              simp at h
          | ok next =>
              rw [run] at h
              obtain ⟨lt, absent, current, carried⟩ := ih h
              exact ⟨by push_cast; omega, absent, current, carried.head known run⟩

end Carry

section Complete

variable {reg : Registry β ε}

theorem upcast_of_stepwise (complete : reg.assertEvolutionComplete = .ok ())
    (stepwise : Stepwise reg) {typeName : String} {a b : ℤ} (ha : reg.Registered typeName a)
    (hb : reg.Registered typeName b) (body : β) (typeName' : String) (version : ℤ) :
    reg.upcast typeName body a b ≠ .error (.missing typeName' version) := by
  intro missed
  rw [Registry.upcast] at missed
  split at missed
  · simp at missed
  obtain ⟨lt, absent, current, carried⟩ := carried_of_missing missed
  have low := carried.le
  obtain ⟨previous, next, consecutive, from_a, atMost, beyond⟩ :=
    exists_consecutive ha hb low (by omega)
  have known : (reg.step? typeName version).isSome = true := by
    cases bumps_of_complete complete consecutive with
    | inl compatible =>
        obtain ⟨there, onward⟩ := carried.onward from_a atMost
        exact stepwise typeName previous next consecutive compatible there version current onward
          beyond
    | inr steps => exact steps version atMost beyond
  rw [absent] at known
  simp at known

theorem loadStream_of_upcast
    (upcast : ∀ typeName a b, reg.Registered typeName a → reg.Registered typeName b → a ≤ b →
      ∀ body typeName' version, reg.upcast typeName body a b ≠ .error (.missing typeName' version))
    {events : List (StoredEvent β)} {expected : List (String × ℤ)}
    (registered : ∀ event ∈ events, ∀ b, expected.lookup event.type = some b →
      reg.Registered event.type event.schemaVersion ∧ reg.Registered event.type b ∧
        event.schemaVersion ≤ b)
    (aggregate aggregateId : String) (uptoSeq : Option ℤ) (typeName : String) (version : ℤ) :
    reg.loadStream events aggregate aggregateId uptoSeq expected ≠
      .error (.missing typeName version) := by
  intro missed
  obtain ⟨event, hevent, failed⟩ := Checks.exists_of_mapM_eq_error missed
  rw [KeySort.mem_sortBy, List.mem_filter] at hevent
  rw [Registry.readEvent] at failed
  cases target : expected.lookup event.type with
  | none =>
      rw [target] at failed
      simp at failed
  | some b =>
      obtain ⟨ha, hb, le⟩ := registered event hevent.1 b target
      rw [target] at failed
      dsimp only at failed
      split at failed
      · simp at failed
      cases read : reg.upcast event.type event.payload event.schemaVersion b with
      | ok payload =>
          rw [read] at failed
          simp [Except.map] at failed
      | error error =>
          rw [read] at failed
          have eq : error = .missing typeName version := by simpa [Except.map] using failed
          exact upcast event.type event.schemaVersion b ha hb le event.payload typeName version
            (eq ▸ read)

/-- A registry that passes the check never misses an upcaster exactly if the backward
    compatible bumps have theirs. -/
theorem evolution_complete_iff_stepwise (complete : reg.assertEvolutionComplete = .ok ()) :
    NeverMissing reg ↔ Stepwise reg := by
  constructor
  · intro never typeName previous next consecutive _ body version current carried beyond
    by_contra absent
    have absent : reg.step? typeName version = none := by
      simpa using absent
    have low := carried.le
    apply never.upcast typeName previous next consecutive.lower consecutive.upper
      consecutive.lt.le body typeName version
    have steps : (next - previous).toNat =
        (version - previous).toNat + ((next - version - 1).toNat + 1) := by
      omega
    rw [Registry.upcast, if_neg (not_lt.mpr consecutive.lt.le), steps,
      upcastSteps_of_carried carried, Registry.upcastSteps, absent]
  · intro stepwise
    have upcast : ∀ typeName a b, reg.Registered typeName a → reg.Registered typeName b →
        a ≤ b → ∀ body typeName' version,
          reg.upcast typeName body a b ≠ .error (.missing typeName' version) := by
      intro typeName a b ha hb _ body typeName' version
      exact upcast_of_stepwise complete stepwise ha hb body typeName' version
    constructor
    · exact upcast
    · intro events aggregate aggregateId uptoSeq expected registered typeName version
      exact loadStream_of_upcast upcast registered aggregate aggregateId uptoSeq typeName version

end Complete

def ofType (t : JsonType) : Schema := .mk [t] none .nil [] .any

/-- `{"a": {"type": "string"}, "b": {"type": "integer"}}` -/
def firstProperties : Schema.Properties :=
  .cons "a" (ofType .string) (.cons "b" (ofType .integer) .nil)

def optionalField : Registry Body Unit :=
  let first := Schema.mk [.object] none firstProperties ["a"] .any
  let second := Schema.mk [.object] none (.cons "d" (ofType .boolean) firstProperties) ["a"] .any
  (Registry.empty.registerSchema "T" 1 first).registerSchema "T" 2 second

/-- The same with an upcaster. -/
def backfilled : Registry Body Unit :=
  (optionalField.registerUpcaster "T" 1 2 fun body =>
    .ok (.cons "d" (.bool false) body)).getD optionalField

/-- A check that passes and a read that misses an upcaster. -/
theorem optional_field_missing :
    optionalField.assertEvolutionComplete = .ok () ∧ ¬ NeverMissing optionalField := by
  constructor
  · rfl
  · intro never
    apply never.upcast "T" 1 2 _ _ (by decide) (.cons "a" (.str "x") .nil) "T" 1 rfl
    · exact ⟨_, List.mem_cons_self, rfl, rfl⟩
    · exact ⟨_, List.mem_cons_of_mem _ List.mem_cons_self, rfl, rfl⟩

theorem registered_backfilled {typeName : String} {version : ℤ}
    (h : backfilled.Registered typeName version) :
    typeName = "T" ∧ (version = 1 ∨ version = 2) := by
  obtain ⟨entry, hentry, type, eq⟩ := h
  rw [← type, ← eq]
  cases List.mem_cons.mp hentry with
  | inl first => rw [first]; simp
  | inr rest => rw [List.mem_singleton.mp rest]; simp

theorem stepwise_backfilled : Stepwise backfilled := by
  intro typeName previous next consecutive _ body version current carried beyond
  obtain ⟨type, _⟩ := registered_backfilled consecutive.lower
  have lower := (registered_backfilled consecutive.lower).2
  have upper := (registered_backfilled consecutive.upper).2
  have low := carried.le
  have lt := consecutive.lt
  have eq : version = 1 := by omega
  rw [type, eq]
  rfl

theorem evolution_complete_iff_stepwise_backfilled : NeverMissing backfilled :=
  (evolution_complete_iff_stepwise rfl).mpr stepwise_backfilled

end FeatureGen.EventSchemas
