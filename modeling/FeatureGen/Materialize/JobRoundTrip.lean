import FeatureGen.Materialize.FrozenJobs

/-! # What is read back of a frozen job

A job is read back of its payload as it was, unless a text that may not be blank is. No
two jobs have one payload, and no payload is read that has a key of its own in an
identity envelope or a snapshot policy.
-/

namespace FeatureGen.Materialize

open FeatureGen.Overlay Checks

namespace JobPayload

@[simp]
theorem ok_bind {α β : Type} (a : α) (f : α → Except String β) : (Except.ok a >>= f) = f a := rfl

/-- A value written by `plain` is read back where it is readable, and as it was. -/
def ReadsBack {α : Type} (read : Document ℚ → Except String α) (plain : α → Document ℚ)
    (readable : α → Prop) : Prop :=
  ∀ a b, read (plain a) = .ok b ↔ readable a ∧ a = b

theorem ReadsBack.bind_eq_ok {α β : Type} {read : Document ℚ → Except String α}
    {plain : α → Document ℚ} {readable : α → Prop} (back : ReadsBack read plain readable) {a : α}
    {f : α → Except String β} {b : β} :
    (read (plain a) >>= f) = .ok b ↔ readable a ∧ f a = .ok b := by
  rw [Checks.bind_eq_ok]
  constructor
  · intro h
    obtain ⟨a', read, hf⟩ := h
    obtain ⟨readable, rfl⟩ := (back a a').mp read
    exact ⟨readable, hf⟩
  · intro h
    exact ⟨a, (back a a).mpr ⟨h.1, rfl⟩, h.2⟩

theorem text_readsBack (location : String) :
    ReadsBack (text location) .str fun s => strip s ≠ "" := by
  intro s s'
  rw [text]
  by_cases named : strip s ≠ ""
  · rw [if_pos named, Except.ok.injEq]
    simp only [named, ne_eq, not_false_eq_true, true_and]
  · rw [if_neg named]
    simp [named]

theorem textsOf_map {location : String} {values read : List String} :
    textsOf location (values.map .str) = .ok read ↔
      (∀ s ∈ values, strip s ≠ "") ∧ values = read := by
  induction values generalizing read with
  | nil => simp [textsOf]
  | cons s values ih =>
      rw [List.map_cons, textsOf, (text_readsBack location).bind_eq_ok, Checks.bind_eq_ok,
        List.forall_mem_cons, and_assoc]
      refine and_congr_right fun _ => ?_
      constructor
      · intro h
        obtain ⟨rest, hrest, hread⟩ := h
        obtain ⟨others, rfl⟩ := ih.mp hrest
        cases hread
        exact ⟨others, rfl⟩
      · intro h
        obtain ⟨others, rfl⟩ := h
        exact ⟨values, ih.mpr ⟨others, rfl⟩, rfl⟩

theorem textList_readsBack (location : String) :
    ReadsBack (textList location) texts fun values => ∀ s ∈ values, strip s ≠ "" := by
  intro values read
  rw [texts, Document.array, textList, Document.Items.toList_ofList]
  exact textsOf_map

theorem stringsOf_map {field : String} (values : List String) :
    stringsOf field (values.map .str) = .ok values := by
  induction values with
  | nil => rfl
  | cons s values ih =>
      rw [List.map_cons, stringsOf, ih]
      rfl

@[simp]
theorem carriedTexts_texts {field : String} (values : List String) :
    carriedTexts field (texts values) = .ok values := by
  rw [texts, Document.array, carriedTexts, Document.Items.toList_ofList]
  exact stringsOf_map values

@[simp]
theorem carriedOptional_nullable {field : String} (value : Option String) :
    carriedOptional field (nullable .str value) = .ok value := by
  cases value <;> rfl

@[simp]
theorem member_value {α : Type} [StrEnum α] {name : String} (a : α) :
    member α name (StrEnum.value a) = .ok a := by
  rw [member, StrEnum.ofValue?_eq_some.mpr rfl]

@[simp]
theorem int_integer (n : ℤ) : int (integer n) = .ok n := by
  simp [int, integer]

theorem unlessNull_readsBack {α : Type} {read : Document ℚ → Except String α}
    {plain : α → Document ℚ} {readable : α → Prop} (back : ReadsBack read plain readable)
    (written : ∀ a, plain a ≠ .null) :
    ReadsBack (unlessNull read) (nullable plain) fun value => ∀ a ∈ value, readable a := by
  intro value b
  cases value with
  | none =>
      change Except.ok none = Except.ok b ↔ _
      simp
  | some a =>
      have reads : unlessNull read (nullable plain (some a)) = (read (plain a)).map some := by
        rw [nullable]
        cases h : plain a with
        | null => exact absurd h (written a)
        | _ => rfl
      rw [reads]
      change (some <$> read (plain a)) = .ok b ↔ _
      rw [map_eq_ok]
      constructor
      · intro h
        obtain ⟨a', read, rfl⟩ := h
        obtain ⟨readable, rfl⟩ := (back a a').mp read
        exact ⟨fun a' ha' => Option.some.inj ha' ▸ readable, rfl⟩
      · intro h
        obtain ⟨readable, rfl⟩ := h
        exact ⟨a, (back a a).mpr ⟨readable a rfl, rfl⟩, rfl⟩

@[simp]
theorem get_cons (key key' : String) (value : Document ℚ) (members : List (String × Document ℚ)) :
    get (.ofList ((key, value) :: members)) key' =
      if key = key' then value else get (.ofList members) key' := by
  rw [get, Document.Members.ofList, Document.Members.get?]
  split <;> rfl

@[simp]
theorem get?_cons (key key' : String) (value : Document ℚ)
    (members : List (String × Document ℚ)) :
    (Document.Members.ofList ((key, value) :: members)).get? key' =
      if key = key' then some value else (Document.Members.ofList members).get? key' := rfl

@[simp]
theorem mapping_object (location : String) (members : List (String × Document ℚ)) :
    mapping location (.object members) = .ok (.ofList members) := rfl

theorem build_promise (promise : AvailabilityPromiseV1) :
    AvailabilityPromiseV1.build promise.kind promise.calendarDays promise.plusMinutes =
      .ok promise := by
  rw [AvailabilityPromiseV1.build, dif_pos promise.days_nonneg, dif_pos promise.minutes_canonical]

theorem build_overrides (overrides : ContractOverrides) :
    ContractOverrides.build overrides.sensitivityClass overrides.accessRequirements
      overrides.availabilityPromise = .ok overrides := by
  rw [ContractOverrides.build, dif_pos overrides.ranked]

variable {zoneInfo : String → Bool}

theorem build_cadence (cadence : CadenceDecl zoneInfo) :
    CadenceDecl.build zoneInfo cadence.period cadence.timezone cadence.businessDateCutoff
      cadence.trigger = .ok cadence := by
  rw [CadenceDecl.build, dif_pos cadence.known]
  split
  · next cutoff h =>
      obtain rfl : cadence.businessDateCutoff = cutoff :=
        Except.ok.inj (cadence.canonical.symm.trans h)
      rfl
  · next message h =>
      rw [cadence.canonical] at h
      cases h

/-- No text of the cadence that may not be blank is. -/
def ReadableCadence (cadence : CadenceDecl zoneInfo) : Prop :=
  strip cadence.timezone ≠ "" ∧ strip cadence.businessDateCutoff ≠ ""

theorem cadence_readsBack : ReadsBack (decodeCadence zoneInfo) plainCadence ReadableCadence := by
  intro cadence cadence'
  have period : strip (StrEnum.value cadence.period) ≠ "" := by
    cases cadence.period
    decide
  have trigger : strip (StrEnum.value cadence.trigger) ≠ "" := by
    cases cadence.trigger <;> decide
  simp [decodeCadence, plainCadence, (text_readsBack _).bind_eq_ok, period, trigger,
    ReadableCadence, build_cadence, and_assoc]

theorem promise_readsBack : ReadsBack decodePromise plainPromise fun _ => True := by
  intro promise promise'
  have kind : strip (StrEnum.value promise.kind) ≠ "" := by
    cases promise.kind
    decide
  simp [decodePromise, plainPromise, (text_readsBack _).bind_eq_ok, kind, intMember,
    build_promise]

/-- No requirement is blank. -/
def ReadableOverrides (overrides : ContractOverrides) : Prop :=
  ∀ requirement ∈ overrides.accessRequirements, strip requirement ≠ ""

theorem overrides_readsBack : ReadsBack decodeOverrides plainOverrides ReadableOverrides := by
  intro overrides overrides'
  have promised := unlessNull_readsBack promise_readsBack fun promise => by
    simp [plainPromise, Document.object]
  have listed : orEmpty (texts overrides.accessRequirements) =
      texts overrides.accessRequirements := rfl
  simp [decodeOverrides, plainOverrides, listed, (textList_readsBack _).bind_eq_ok,
    promised.bind_eq_ok, ReadableOverrides, build_overrides]

theorem rebuild_object (names : List String) {needed : List String} {cls location : String}
    {members : List (String × Document ℚ)} (h : members.map Prod.fst = names)
    (sub : needed ⊆ names) :
    rebuild names needed cls location (.object members) = .ok (.ofList members) := by
  have unknown : (members.map Prod.fst).filter (fun key => !names.contains key) = [] := by
    refine List.filter_eq_nil_iff.mpr fun key hkey => ?_
    rw [h] at hkey
    simp [hkey]
  have missing : needed.filter (fun key => !(members.map Prod.fst).contains key) = [] := by
    refine List.filter_eq_nil_iff.mpr fun key hkey => ?_
    rw [h]
    simp [sub hkey]
  rw [rebuild, mapping_object, ok_bind, Document.Members.toList_ofList]
  dsimp only
  rw [unknown, missing]
  rfl

theorem envelope_readsBack : ReadsBack rebuildEnvelope plainEnvelope fun _ => True := by
  intro envelope envelope'
  rw [rebuildEnvelope, plainEnvelope, rebuild_object envelopeNames rfl (by simp [envelopeNeeded, envelopeNames])]
  simp [required, optional, carriedText, carriedBool]

theorem policyFields_names (policy : SnapshotPolicy) :
    (policyFields policy).map Prod.fst = policy.variant.names := by
  cases policy <;> rfl

theorem decodePolicy_plainPolicy (policy : SnapshotPolicy) :
    decodePolicy (plainPolicy policy) =
      buildVariant policy.variant (.ofList (policyFields policy)) := by
  have kind : policyKind (.str (StrEnum.value policy.variant)) = .ok policy.variant := by
    rw [policyKind, StrEnum.ofValue?_eq_some.mpr rfl]
  have found : get (.ofList (policyFields policy ++
      [("kind", .str (StrEnum.value policy.variant))])) "kind" =
        .str (StrEnum.value policy.variant) := by
    cases policy <;> simp [policyFields]
  have taken : (Document.Members.ofList (policyFields policy ++
      [("kind", .str (StrEnum.value policy.variant))])).erase "kind" =
        .ofList (policyFields policy) := by
    cases policy <;> simp [policyFields, Document.Members.ofList, Document.Members.erase]
  rw [decodePolicy, plainPolicy, mapping_object, ok_bind, found, kind, ok_bind, taken]
  dsimp only
  rw [← Document.object, rebuild_object policy.variant.names (policyFields_names policy)
    policy.variant.needed_subset, ok_bind]

theorem policy_readsBack : ReadsBack decodePolicy plainPolicy fun _ => True := by
  intro policy policy'
  rw [decodePolicy_plainPolicy]
  cases policy <;>
    simp [buildVariant, SnapshotPolicy.variant, policyFields, required, optional, carriedText]

/-- No text of the declaration that may not be blank is. -/
@[mk_iff]
structure ReadableSpine (declaration : SpineSourceDeclarationV1) : Prop where
  entity : strip declaration.entity ≠ ""
  sourceTableRef : strip declaration.sourceTableRef ≠ ""
  orderedKeyRefs : ∀ ref ∈ declaration.orderedKeyRefs, strip ref ≠ ""
  declarationReason : strip declaration.declarationReason ≠ ""
  recordedAt : strip declaration.recordedAt ≠ ""
  declarationRecordId : strip declaration.declarationRecordId ≠ ""

theorem spine_readsBack : ReadsBack decodeSpine encodeSpine ReadableSpine := by
  intro declaration declaration'
  have semantics : strip (StrEnum.value declaration.populationSemantics) ≠ "" := by
    cases declaration.populationSemantics <;> decide
  rw [readableSpine_iff]
  simp [decodeSpine, encodeSpine, (text_readsBack _).bind_eq_ok, semantics,
    (textList_readsBack _).bind_eq_ok, policy_readsBack.bind_eq_ok,
    envelope_readsBack.bind_eq_ok, intMember, and_assoc]

/-- No text of the job that may not be blank is. -/
@[mk_iff]
structure Readable (job : FrozenJob zoneInfo) : Prop where
  requestId : strip job.requestId ≠ ""
  workItemIds : ∀ id ∈ job.workItemIds, strip id ≠ ""
  spineDeclaration : ∀ declaration ∈ job.spineDeclaration, ReadableSpine declaration
  cadence : ReadableCadence job.cadence
  publishedSchema : ∀ columns ∈ job.publishedSchema, ∀ column ∈ columns, strip column ≠ ""
  contractOverrides : ∀ overrides ∈ job.contractOverrides, ReadableOverrides overrides
  businessDt : ∀ date ∈ job.businessDt, strip date ≠ ""

theorem job_readsBack : ReadsBack (decodeJob zoneInfo) encodeJob Readable := by
  intro job job'
  have mechanism : strip (StrEnum.value job.mechanism) ≠ "" := by
    cases job.mechanism <;> decide
  have declared := unlessNull_readsBack spine_readsBack fun declaration => by
    simp [encodeSpine, Document.object]
  have listed := textList_readsBack "job published_schema"
  have published := unlessNull_readsBack listed fun columns => by simp [texts, Document.array]
  have overridden := unlessNull_readsBack overrides_readsBack fun overrides => by
    simp [plainOverrides, Document.object]
  have dated := unlessNull_readsBack (text_readsBack "job business_dt") fun date => by simp
  rw [readable_iff]
  simp [decodeJob, encodeJob, ensure, currentVersion, (text_readsBack _).bind_eq_ok, mechanism,
    (textList_readsBack _).bind_eq_ok, declared.bind_eq_ok, cadence_readsBack.bind_eq_ok,
    promise_readsBack.bind_eq_ok, published.bind_eq_ok, overridden.bind_eq_ok, dated.bind_eq_ok,
    and_assoc]

@[simp]
theorem texts_inj {as bs : List String} : texts as = texts bs ↔ as = bs := by
  constructor
  · intro h
    exact List.map_injective_iff.mpr (fun _ _ => Document.str.inj) (Document.array_injective h)
  · rintro rfl
    rfl

theorem nullable_injective {α : Type} {plain : α → Document ℚ} (inj : Function.Injective plain)
    (written : ∀ a, plain a ≠ .null) : Function.Injective (nullable plain) := by
  intro a b h
  cases a with
  | none =>
      cases b with
      | none => rfl
      | some b => exact absurd h.symm (written b)
  | some a =>
      cases b with
      | none => exact absurd h (written a)
      | some b => exact congrArg some (inj h)

theorem str_injective : Function.Injective (Document.str : String → Document ℚ) := fun _ _ =>
  Document.str.inj

@[simp]
theorem nullable_str_inj {a b : Option String} :
    nullable .str a = nullable .str b ↔ a = b :=
  (nullable_injective str_injective fun _ => by simp).eq_iff

@[simp]
theorem integer_inj {m n : ℤ} : integer m = integer n ↔ m = n := by
  simp [integer]

@[simp]
theorem object_inj {as bs : List (String × Document ℚ)} :
    Document.object as = .object bs ↔ as = bs := Document.object_injective.eq_iff

@[simp]
theorem value_inj {α : Type} [StrEnum α] {a b : α} :
    StrEnum.value a = StrEnum.value b ↔ a = b := StrEnum.value_injective.eq_iff

theorem ReadsBack.injective {α : Type} {read : Document ℚ → Except String α}
    {plain : α → Document ℚ} (back : ReadsBack read plain fun _ => True) :
    Function.Injective plain := by
  intro a b h
  have reads := (back b b).mpr ⟨trivial, rfl⟩
  rw [← h] at reads
  exact ((back a b).mp reads).2

theorem plainCadence_injective :
    Function.Injective (plainCadence : CadenceDecl zoneInfo → Document ℚ) := by
  intro a b h
  cases a
  cases b
  simpa [plainCadence] using h

theorem plainOverrides_injective : Function.Injective plainOverrides := by
  intro a b h
  have promises := nullable_injective promise_readsBack.injective fun promise => by
    simp [plainPromise, Document.object]
  cases a
  cases b
  simpa [plainOverrides, promises.eq_iff] using h

theorem encodeSpine_injective : Function.Injective encodeSpine := by
  intro a b h
  simp only [encodeSpine, object_inj, List.cons.injEq, Prod.mk.injEq, true_and, and_true,
    Document.str.injEq, texts_inj, value_inj, nullable_str_inj, policy_readsBack.injective.eq_iff,
    envelope_readsBack.injective.eq_iff, integer_inj] at h
  obtain ⟨⟨_, _, _, _, _, _, _, _⟩, _, _, _⟩ := a
  obtain ⟨⟨_, _, _, _, _, _, _, _⟩, _, _, _⟩ := b
  simp_all

theorem encodeJob_injective : Function.Injective (encodeJob : FrozenJob zoneInfo → Document ℚ) := by
  intro a b h
  have declared := nullable_injective encodeSpine_injective fun declaration => by
    simp [encodeSpine, Document.object]
  have published := nullable_injective (fun _ _ => texts_inj.mp) fun columns => by
    simp [texts, Document.array]
  have overridden := nullable_injective plainOverrides_injective fun overrides => by
    simp [plainOverrides, Document.object]
  simp only [encodeJob, object_inj, List.cons.injEq, Prod.mk.injEq, true_and, and_true,
    Document.str.injEq, texts_inj, declared.eq_iff, plainCadence_injective.eq_iff,
    promise_readsBack.injective.eq_iff, value_inj, published.eq_iff, overridden.eq_iff,
    nullable_str_inj] at h
  obtain ⟨⟨_, _⟩, _, _, _, _, _, _, _⟩ := a
  obtain ⟨⟨_, _⟩, _, _, _, _, _, _, _⟩ := b
  simp_all

theorem mem_keys_erase {members : Document.Members ℚ} {erased key : String} (other : key ≠ erased)
    (h : key ∈ members.toList.map Prod.fst) :
    key ∈ (members.erase erased).toList.map Prod.fst := by
  induction members with
  | nil => simp [Document.Members.toList] at h
  | cons key' value members ih =>
      rw [Document.Members.toList, List.map_cons, List.mem_cons] at h
      rw [Document.Members.erase]
      split
      · next same =>
          exact ih (h.resolve_left fun here => other (here.trans same))
      · rw [Document.Members.toList, List.map_cons, List.mem_cons]
        exact h.imp_right ih

theorem mem_names_of_rebuild {names needed : List String} {cls location key : String}
    {members node : Document.Members ℚ}
    (h : rebuild names needed cls location (.dict members) = .ok node)
    (mem : key ∈ members.toList.map Prod.fst) : key ∈ names := by
  have found : mapping location (.dict members) = .ok members := rfl
  rw [rebuild, found, ok_bind] at h
  have known := ensure_eq_ok.mp (check_bind_eq_ok.mp h).1
  by_contra absent
  have unknown : key ∈ sortedSet ((members.toList.map Prod.fst).filter fun key =>
      !names.contains key) := by
    rw [sortedSet, KeySort.mem_sortBy, List.mem_dedup, List.mem_filter]
    exact ⟨mem, by simpa using absent⟩
  rw [known] at unknown
  exact List.not_mem_nil unknown

/-- A key in an identity envelope or a snapshot policy that its class does not declare. -/
inductive UnknownKey : Document ℚ → Prop where
  | envelope (payload spine envelope : Document.Members ℚ) (key : String)
      (declared : get payload "spine_declaration" = .dict spine)
      (rebuilt : get spine "declared_by" = .dict envelope)
      (mem : key ∈ envelope.toList.map Prod.fst) (unknown : key ∉ envelopeNames) :
      UnknownKey (.dict payload)
  | policy (payload spine policy : Document.Members ℚ) (key : String)
      (declared : get payload "spine_declaration" = .dict spine)
      (rebuilt : get spine "snapshot_policy" = .dict policy)
      (mem : key ∈ policy.toList.map Prod.fst) (other : key ≠ "kind")
      (unknown : ∀ kind : SnapshotPolicyKind, get policy "kind" = .str (StrEnum.value kind) →
        key ∉ kind.names) :
      UnknownKey (.dict payload)

theorem kind_of_policyKind {value : Document ℚ} {kind : SnapshotPolicyKind}
    (h : policyKind value = .ok kind) : value = .str (StrEnum.value kind) := by
  unfold policyKind at h
  cases value with
  | str s =>
      dsimp only at h
      split at h
      · next found =>
          cases h
          rw [StrEnum.ofValue?_eq_some.mp found]
      · cases h
  | _ => cases h

theorem spine_of_decodeJob {payload spine : Document.Members ℚ} {job : FrozenJob zoneInfo}
    (h : decodeJob zoneInfo (.dict payload) = .ok job)
    (declared : get payload "spine_declaration" = .dict spine) :
    ∃ declaration, decodeSpine (.dict spine) = .ok declaration := by
  have found : mapping "materialization job payload" (.dict payload) = .ok payload := rfl
  rw [decodeJob, found, ok_bind] at h
  have h := (check_bind_eq_ok.mp h).2
  obtain ⟨_, _, h⟩ := Checks.bind_eq_ok.mp h
  obtain ⟨_, _, h⟩ := Checks.bind_eq_ok.mp h
  obtain ⟨_, read, _⟩ := Checks.bind_eq_ok.mp h
  rw [declared] at read
  change (some <$> decodeSpine (.dict spine)) = _ at read
  obtain ⟨declaration, read, _⟩ := map_eq_ok.mp read
  exact ⟨declaration, read⟩

theorem rebuilt_of_decodeSpine {spine : Document.Members ℚ}
    {declaration : SpineSourceDeclarationV1} (h : decodeSpine (.dict spine) = .ok declaration) :
    (∃ policy, decodePolicy (get spine "snapshot_policy") = .ok policy) ∧
      ∃ envelope, rebuildEnvelope (get spine "declared_by") = .ok envelope := by
  have found : mapping "job spine_declaration" (.dict spine) = .ok spine := rfl
  rw [decodeSpine, found, ok_bind] at h
  obtain ⟨_, _, h⟩ := Checks.bind_eq_ok.mp h
  obtain ⟨_, _, h⟩ := Checks.bind_eq_ok.mp h
  obtain ⟨_, _, h⟩ := Checks.bind_eq_ok.mp h
  obtain ⟨_, _, h⟩ := Checks.bind_eq_ok.mp h
  obtain ⟨_, _, h⟩ := Checks.bind_eq_ok.mp h
  obtain ⟨_, _, h⟩ := Checks.bind_eq_ok.mp h
  obtain ⟨policy, hpolicy, h⟩ := Checks.bind_eq_ok.mp h
  obtain ⟨envelope, henvelope, _⟩ := Checks.bind_eq_ok.mp h
  exact ⟨⟨policy, hpolicy⟩, envelope, henvelope⟩

theorem not_decoded_of_unknownKey {payload : Document ℚ} (h : UnknownKey payload)
    (job : FrozenJob zoneInfo) : decodeJob zoneInfo payload ≠ .ok job := by
  intro decoded
  cases h with
  | envelope payload spine envelope key declared rebuilt mem unknown =>
      obtain ⟨declaration, hspine⟩ := spine_of_decodeJob decoded declared
      obtain ⟨_, read, henvelope⟩ := rebuilt_of_decodeSpine hspine
      rw [rebuilt, rebuildEnvelope] at henvelope
      obtain ⟨node, hnode, _⟩ := Checks.bind_eq_ok.mp henvelope
      exact unknown (mem_names_of_rebuild hnode mem)
  | policy payload spine policy key declared rebuilt mem other unknown =>
      obtain ⟨declaration, hspine⟩ := spine_of_decodeJob decoded declared
      obtain ⟨⟨read, hpolicy⟩, _⟩ := rebuilt_of_decodeSpine hspine
      have found : mapping "spine snapshot_policy" (.dict policy) = .ok policy := rfl
      rw [rebuilt, decodePolicy, found, ok_bind] at hpolicy
      obtain ⟨kind, hkind, hpolicy⟩ := Checks.bind_eq_ok.mp hpolicy
      obtain ⟨node, hnode, _⟩ := Checks.bind_eq_ok.mp hpolicy
      have known := mem_names_of_rebuild hnode (mem_keys_erase other mem)
      exact unknown kind (kind_of_policyKind hkind) known

end JobPayload

open JobPayload in
/-- A job is read back of the text of its payload as it was or refused, one payload is of one
    job, and a payload with an unknown key in a rebuilt declaration is refused. -/
theorem frozen_job_round_trips (zoneInfo : String → Bool) :
    (∀ (job : FrozenJob zoneInfo) payload, payload.text = (encodeJob job).text →
      ∀ read, decodeJob zoneInfo payload = .ok read ↔ Readable job ∧ job = read) ∧
    (∀ job job' : FrozenJob zoneInfo, (encodeJob job).text = (encodeJob job').text → job = job') ∧
    ∀ payload, UnknownKey payload → ∀ read, decodeJob zoneInfo payload ≠ .ok read := by
  refine ⟨?_, ?_, ?_⟩
  · intro job payload same read
    rw [Document.text_injective same]
    exact job_readsBack job read
  · intro job job' same
    exact encodeJob_injective (Document.text_injective same)
  · intro payload unknown read
    exact not_decoded_of_unknownKey unknown read

end FeatureGen.Materialize
