import Mathlib
import FeatureGen.Materialize.GroupPlan

/-! # Membership per environment

What the queries answer after any recordings. A plan's hash does not name its
environment: a second environment that publishes the same plan finds the row of
the first, and gets none of its own.
-/

namespace FeatureGen.Materialize

/-- A call of `record_group_plan`. -/
structure Recording where
  plan : FeatureGroupPlan
  environmentId : String

section Membership

variable (materializeHash : Json → String)

/-- The store after a call; one that raises leaves it alone. -/
def recordOne (s : GroupStore) (r : Recording) : GroupStore :=
  (recordGroupPlan materializeHash s r.plan r.environmentId).getD s

/-- The store after a sequence of calls. -/
def recordAll (rs : List Recording) : GroupStore :=
  rs.foldl (recordOne materializeHash) GroupStore.empty

def Recording.hash (r : Recording) : String := groupPlanHash materializeHash r.plan

/-- The call does not raise. -/
def Recording.accepted (r : Recording) : Bool :=
  recordable (r.hash materializeHash) r.plan r.environmentId

/-- The rows a plan is recorded as. -/
def Recording.published (r : Recording) : List GroupMembership :=
  r.plan.features.map fun f => membership
    (groupRow (r.hash materializeHash) r.plan r.environmentId)
    (memberRow (r.hash materializeHash) f)

def Published (rs : List Recording) (row : GroupMembership) : Prop :=
  ∃ r ∈ rs, r.accepted materializeHash = true ∧ row ∈ r.published materializeHash

structure PerEnvironment (rs : List Recording) : Prop where
  members : ∀ environmentId name row,
    row ∈ membersOfGroup (recordAll materializeHash rs) environmentId name ↔
      Published materializeHash rs row ∧ row.environmentId = environmentId ∧
        row.logicalGroupName = name
  inverse : ∀ environmentId column row,
    row ∈ groupOfFeature (recordAll materializeHash rs) environmentId column ↔
      row.columnName = column ∧
        row ∈ membersOfGroup (recordAll materializeHash rs) environmentId row.logicalGroupName
  once : ∀ environmentId name,
    (membersOfGroup (recordAll materializeHash rs) environmentId name).Nodup
  /-- A call for another environment changes no answer. -/
  apart : ∀ pre r, rs = pre ++ [r] → ∀ environmentId ≠ r.environmentId, ∀ name row,
    row ∈ membersOfGroup (recordAll materializeHash pre) environmentId name ↔
      row ∈ membersOfGroup (recordAll materializeHash rs) environmentId name

/-- No feature of a plan meets a row of another environment's, or of another plan's. -/
def Unclaimed (s : GroupStore) (r : Recording) : Prop :=
  r.accepted materializeHash = true → ∀ f ∈ r.plan.features,
    (∀ g, s.groups.get? (r.hash materializeHash) = some g →
      g = groupRow (r.hash materializeHash) r.plan r.environmentId) ∧
    (∀ m, s.members.get? (r.hash materializeHash, f.columnName) = some m → m.irHash = f.irHash) ∧
    ∀ f' ∈ r.plan.features, f'.columnName = f.columnName → f'.irHash = f.irHash

end Membership

theorem mem_joined {s : GroupStore} {row : GroupMembership} :
    row ∈ s.joined ↔ ∃ g ∈ s.groups, ∃ m ∈ s.members, m.groupPlanHash = g.groupPlanHash ∧
      row = membership g m := by
  simp only [GroupStore.joined, List.mem_flatMap, List.mem_map, List.mem_filter,
    decide_eq_true_eq]
  constructor
  · rintro ⟨g, hg, m, ⟨hm, hash⟩, rfl⟩
    exact ⟨g, hg, m, hm, hash, rfl⟩
  · rintro ⟨g, hg, m, hm, hash, rfl⟩
    exact ⟨g, hg, m, ⟨hm, hash⟩, rfl⟩

theorem mem_membersOfGroup {s : GroupStore} {environmentId name : String} {row : GroupMembership} :
    row ∈ membersOfGroup s environmentId name ↔
      row ∈ s.joined ∧ row.environmentId = environmentId ∧ row.logicalGroupName = name := by
  simp [membersOfGroup]

theorem mem_groupOfFeature {s : GroupStore} {environmentId column : String}
    {row : GroupMembership} :
    row ∈ groupOfFeature s environmentId column ↔
      row ∈ s.joined ∧ row.environmentId = environmentId ∧ row.columnName = column := by
  simp [groupOfFeature]

theorem membership_inj {g g' : GroupRow} {m m' : MemberRow}
    (hash : m.groupPlanHash = g.groupPlanHash) (hash' : m'.groupPlanHash = g'.groupPlanHash)
    (h : membership g m = membership g' m') : g = g' ∧ m = m' := by
  obtain ⟨gh, ge, gn, gc⟩ := g
  obtain ⟨gh', ge', gn', gc'⟩ := g'
  obtain ⟨mh, mc, mi⟩ := m
  obtain ⟨mh', mc', mi'⟩ := m'
  simp only [membership, GroupMembership.mk.injEq] at h hash hash'
  obtain ⟨rfl, rfl, rfl, rfl, rfl, rfl⟩ := h
  subst hash hash'
  exact ⟨rfl, rfl⟩

theorem nodup_joined (s : GroupStore) : s.joined.Nodup := by
  have groups : s.groups.rows.Nodup := List.Nodup.of_map _ s.groups.keys_nodup
  have members : s.members.rows.Nodup := List.Nodup.of_map _ s.members.keys_nodup
  rw [GroupStore.joined, List.nodup_flatMap]
  constructor
  · intro g _
    refine List.Nodup.map_on ?_ (members.filter _)
    intro m hm m' hm' heq
    simp only [List.mem_filter, decide_eq_true_eq] at hm hm'
    exact (membership_inj hm.2 hm'.2 heq).2
  · refine groups.imp ?_
    intro g g' hne row hrow hrow'
    simp only [List.mem_map, List.mem_filter, decide_eq_true_eq] at hrow hrow'
    obtain ⟨m, ⟨-, hash⟩, rfl⟩ := hrow
    obtain ⟨m', ⟨-, hash'⟩, heq⟩ := hrow'
    exact hne (membership_inj hash hash' heq.symm).1

theorem nodup_membersOfGroup (s : GroupStore) (environmentId name : String) :
    (membersOfGroup s environmentId name).Nodup := by
  rw [membersOfGroup, (List.perm_insertionSort _ _).nodup_iff]
  exact (nodup_joined s).filter _

section Calls

variable {materializeHash : Json → String} {s : GroupStore} {r : Recording}

def Referenced (s : GroupStore) : Prop :=
  ∀ m ∈ s.members, ∃ g ∈ s.groups, g.groupPlanHash = m.groupPlanHash

theorem recordOne_of_accepted (h : r.accepted materializeHash = true) :
    recordOne materializeHash s r =
      { groups := s.groups.insertNew (groupRow (r.hash materializeHash) r.plan r.environmentId)
        members := (r.plan.features.map (memberRow (r.hash materializeHash))).foldl
          Table.insertNew s.members } := by
  rw [List.foldl_map]
  exact congrArg (Option.getD · s) (if_pos h)

theorem recordOne_of_raised (h : r.accepted materializeHash = false) :
    recordOne materializeHash s r = s := by
  have raised : recordGroupPlan materializeHash s r.plan r.environmentId = none :=
    if_neg (by simpa [Recording.accepted, Recording.hash] using h)
  rw [recordOne, raised, Option.getD_none]

theorem exists_groupRow (t : Table GroupRow.groupPlanHash) (g : GroupRow) :
    ∃ g' ∈ t.insertNew g, g'.groupPlanHash = g.groupPlanHash := by
  by_cases taken : ∃ x ∈ t, x.groupPlanHash = g.groupPlanHash
  · obtain ⟨x, hx, hk⟩ := taken
    exact ⟨x, Table.mem_insertNew.mpr (Or.inl hx), hk⟩
  · push Not at taken
    exact ⟨g, Table.mem_insertNew.mpr (Or.inr ⟨rfl, taken⟩), rfl⟩

theorem Referenced.recordOne (h : Referenced s) : Referenced (recordOne materializeHash s r) := by
  cases accepted : r.accepted materializeHash with
  | false =>
      rw [recordOne_of_raised accepted]
      exact h
  | true =>
      rw [recordOne_of_accepted accepted]
      intro m hm
      rcases Table.mem_of_mem_foldl_insertNew hm with old | new
      · obtain ⟨g, hg, hash⟩ := h m old
        exact ⟨g, Table.mem_insertNew.mpr (Or.inl hg), hash⟩
      · obtain ⟨f, -, rfl⟩ := List.mem_map.mp new
        exact exists_groupRow s.groups _

theorem mem_published {row : GroupMembership} :
    row ∈ r.published materializeHash ↔ ∃ f ∈ r.plan.features,
      row = membership (groupRow (r.hash materializeHash) r.plan r.environmentId)
        (memberRow (r.hash materializeHash) f) := by
  simp [Recording.published, eq_comm]

theorem joined_recordOne (referenced : Referenced s) (unclaimed : Unclaimed materializeHash s r)
    (row : GroupMembership) : row ∈ (recordOne materializeHash s r).joined ↔
      row ∈ s.joined ∨ (r.accepted materializeHash = true ∧ row ∈ r.published materializeHash) := by
  cases accepted : r.accepted materializeHash with
  | false =>
      rw [recordOne_of_raised accepted]
      simp
  | true =>
      have free := unclaimed accepted
      rw [recordOne_of_accepted accepted]
      simp only [true_and, mem_joined, mem_published]
      constructor
      · rintro ⟨g, hg, m, hm, hash, rfl⟩
        rcases Table.mem_insertNew.mp hg with oldGroup | ⟨rfl, fresh⟩ <;>
          rcases Table.mem_of_mem_foldl_insertNew hm with oldMember | newMember
        · exact Or.inl ⟨g, oldGroup, m, oldMember, hash, rfl⟩
        · obtain ⟨f, hf, rfl⟩ := List.mem_map.mp newMember
          have own := (free f hf).1 g (Table.get?_eq_some.mpr ⟨oldGroup, hash.symm⟩)
          exact Or.inr ⟨f, hf, by rw [own]⟩
        · obtain ⟨g, hg, hash'⟩ := referenced m oldMember
          exact absurd (hash'.trans hash) (fresh g hg)
        · obtain ⟨f, hf, rfl⟩ := List.mem_map.mp newMember
          exact Or.inr ⟨f, hf, rfl⟩
      · rintro (⟨g, hg, m, hm, hash, rfl⟩ | ⟨f, hf, rfl⟩)
        · exact ⟨g, Table.mem_insertNew.mpr (Or.inl hg), m, Table.mem_foldl_insertNew_of_mem hm,
            hash, rfl⟩
        · obtain ⟨ownGroup, ownMember, once⟩ := free f hf
          have group : groupRow (r.hash materializeHash) r.plan r.environmentId ∈
              s.groups.insertNew (groupRow (r.hash materializeHash) r.plan r.environmentId) := by
            obtain ⟨g, hg, hash⟩ := exists_groupRow s.groups
              (groupRow (r.hash materializeHash) r.plan r.environmentId)
            rcases Table.mem_insertNew.mp hg with old | ⟨rfl, -⟩
            · exact ownGroup g (Table.get?_eq_some.mpr ⟨old, hash⟩) ▸ hg
            · exact hg
          refine ⟨_, group, memberRow (r.hash materializeHash) f, ?_, rfl, rfl⟩
          apply Table.mem_foldl_insertNew (List.mem_map_of_mem hf)
          · intro m hm hkey
            have same := ownMember m (Table.get?_eq_some.mpr ⟨hm, hkey⟩)
            obtain ⟨hash, column, ir⟩ := m
            simp only [MemberRow.key, memberRow, Prod.mk.injEq] at hkey same ⊢
            rw [hkey.1, hkey.2, same]
          · intro m hm hkey
            obtain ⟨f', hf', rfl⟩ := List.mem_map.mp hm
            simp only [MemberRow.key, memberRow, Prod.mk.injEq, true_and] at hkey
            simp only [memberRow, hkey, once f' hf' hkey]

theorem unclaimed_of_published
    (there : r.accepted materializeHash = true → ∀ row ∈ r.published materializeHash,
      row ∈ (recordOne materializeHash s r).joined) : Unclaimed materializeHash s r := by
  intro accepted f hf
  have rows (f : PlannedFeature) (hf : f ∈ r.plan.features) :
      groupRow (r.hash materializeHash) r.plan r.environmentId ∈
          (recordOne materializeHash s r).groups ∧
        memberRow (r.hash materializeHash) f ∈ (recordOne materializeHash s r).members := by
    obtain ⟨g, hg, m, hm, hash, heq⟩ :=
      mem_joined.mp (there accepted _ (mem_published.mpr ⟨f, hf, rfl⟩))
    obtain ⟨rfl, rfl⟩ := membership_inj rfl hash heq
    exact ⟨hg, hm⟩
  have kept : (∀ g ∈ s.groups, g ∈ (recordOne materializeHash s r).groups) ∧
      ∀ m ∈ s.members, m ∈ (recordOne materializeHash s r).members := by
    rw [recordOne_of_accepted accepted]
    exact ⟨fun g hg => Table.mem_insertNew.mpr (Or.inl hg),
      fun m hm => Table.mem_foldl_insertNew_of_mem hm⟩
  obtain ⟨group, member⟩ := rows f hf
  refine ⟨fun g hget => ?_, fun m hget => ?_, fun f' hf' hcolumn => ?_⟩
  · obtain ⟨hg, hash⟩ := Table.get?_eq_some.mp hget
    exact Table.eq_of_key_eq (kept.1 g hg) group hash
  · obtain ⟨hm, hkey⟩ := Table.get?_eq_some.mp hget
    have same := Table.eq_of_key_eq (kept.2 m hm) member hkey
    rw [same]
    rfl
  · have same := Table.eq_of_key_eq (rows f' hf').2 member (by
      simp only [MemberRow.key, memberRow, hcolumn])
    exact congrArg MemberRow.irHash same

end Calls

section Runs

variable {materializeHash : Json → String}

theorem recordAll_append (rs : List Recording) (r : Recording) :
    recordAll materializeHash (rs ++ [r]) =
      recordOne materializeHash (recordAll materializeHash rs) r := by
  simp [recordAll]

theorem referenced_recordAll (rs : List Recording) : Referenced (recordAll materializeHash rs) := by
  induction rs using List.reverseRecOn with
  | nil => exact fun m hm => absurd hm Table.not_mem_empty
  | append_singleton rs r ih =>
      rw [recordAll_append]
      exact ih.recordOne

theorem published_append {rs : List Recording} {r : Recording} {row : GroupMembership} :
    Published materializeHash (rs ++ [r]) row ↔ Published materializeHash rs row ∨
      (r.accepted materializeHash = true ∧ row ∈ r.published materializeHash) := by
  simp only [Published, List.mem_append, List.mem_singleton]
  constructor
  · rintro ⟨r', hr' | rfl, h⟩
    · exact Or.inl ⟨r', hr', h⟩
    · exact Or.inr h
  · rintro (⟨r', hr', h⟩ | h)
    · exact ⟨r', Or.inl hr', h⟩
    · exact ⟨r, Or.inr rfl, h⟩

theorem joined_recordAll {rs : List Recording}
    (unclaimed : ∀ pre r, pre ++ [r] <+: rs →
      Unclaimed materializeHash (recordAll materializeHash pre) r) (row : GroupMembership) :
    row ∈ (recordAll materializeHash rs).joined ↔ Published materializeHash rs row := by
  induction rs using List.reverseRecOn with
  | nil => simp [recordAll, Published, mem_joined, GroupStore.empty]
  | append_singleton rs r ih =>
      rw [recordAll_append, published_append,
        joined_recordOne (referenced_recordAll rs) (unclaimed rs r (List.prefix_refl _)),
        ih fun pre r' hpre => unclaimed pre r' (hpre.trans (List.prefix_append _ _))]

theorem published_environment {r : Recording} {row : GroupMembership}
    (h : row ∈ r.published materializeHash) : row.environmentId = r.environmentId := by
  obtain ⟨f, -, rfl⟩ := mem_published.mp h
  rfl

theorem perEnvironment_of_unclaimed {rs : List Recording}
    (unclaimed : ∀ pre r, pre ++ [r] <+: rs →
      Unclaimed materializeHash (recordAll materializeHash pre) r) :
    PerEnvironment materializeHash rs := by
  constructor
  · intro environmentId name row
    rw [mem_membersOfGroup, joined_recordAll unclaimed]
  · intro environmentId column row
    rw [mem_groupOfFeature, mem_membersOfGroup]
    tauto
  · exact fun environmentId name => nodup_membersOfGroup _ environmentId name
  · rintro pre r rfl environmentId other name row
    rw [mem_membersOfGroup, mem_membersOfGroup, joined_recordAll unclaimed,
      joined_recordAll fun pre' r' hpre => unclaimed pre' r' (hpre.trans (List.prefix_append _ _)),
      published_append]
    constructor
    · rintro ⟨h, same⟩
      exact ⟨Or.inl h, same⟩
    · rintro ⟨h | ⟨-, h⟩, same⟩
      · exact ⟨h, same⟩
      · exact absurd (same.1.symm.trans (published_environment h)) other

/-- After every recording the queries answer per environment, if and only if no plan that is
    recorded meets rows that are not its own. -/
theorem per_environment_iff (rs : List Recording) :
    (∀ pre, pre <+: rs → PerEnvironment materializeHash pre) ↔
      ∀ pre r, pre ++ [r] <+: rs →
        Unclaimed materializeHash (recordAll materializeHash pre) r := by
  constructor
  · intro answers pre r hpre
    apply unclaimed_of_published
    intro accepted row hrow
    rw [← recordAll_append]
    have answered := (answers _ hpre).members row.environmentId row.logicalGroupName row
    have recorded : Published materializeHash (pre ++ [r]) row :=
      published_append.mpr (Or.inr ⟨accepted, hrow⟩)
    exact (mem_membersOfGroup.mp (answered.mpr ⟨recorded, rfl, rfl⟩)).1
  · intro unclaimed pre hpre
    exact perEnvironment_of_unclaimed fun pre' r hpre' => unclaimed pre' r (hpre'.trans hpre)

end Runs

def churnPlan : FeatureGroupPlan where
  logicalGroupName := "churn"
  materializationContractHash := "contract-1"
  entityKeyColumns := ["customer_id"]
  businessDtColumn := "business_dt"
  features := [⟨"balance_30d", "ir-1", ⟨"DECIMAL(18,2)", true, some .halfUp, some .error⟩⟩]
  physicalTypePolicy := "formula-v2/physical-types@1"

def canonicalText (payload : Json) : String := String.ofList payload.dumps

def promoted : List Recording := [⟨churnPlan, "staging"⟩, ⟨churnPlan, "production"⟩]

theorem groups_recordOne {materializeHash : Json → String} {s : GroupStore} {r : Recording}
    (h : r.accepted materializeHash = true) : (recordOne materializeHash s r).groups =
      s.groups.insertNew (groupRow (r.hash materializeHash) r.plan r.environmentId) := by
  rw [recordOne_of_accepted h]

theorem accepted_promoted {materializeHash : Json → String} {r : Recording} (hr : r ∈ promoted)
    (text : sqlBlank (groupPlanHash materializeHash churnPlan) = false) :
    r.accepted materializeHash = true := by
  simp only [promoted, List.mem_cons, List.not_mem_nil, or_false] at hr
  rcases hr with rfl | rfl <;>
    simp only [Recording.accepted, Recording.hash, recordable, text] <;> decide +kernel

theorem sqlBlank_canonicalText (plan : FeatureGroupPlan) :
    sqlBlank (groupPlanHash canonicalText plan) = false := by
  obtain ⟨c, rest, hrender, hkind, _⟩ := plan.identityPayload.sortKeys.render_head
  have hc : c ≠ ' ' := by
    rintro rfl
    simp [Json.kindOf, FeatureGroupPlan.identityPayload, Json.sortKeys, Json.kind] at hkind
  simp [sqlBlank, groupPlanHash, canonicalText, Json.dumps, hrender, hc]

theorem promoted_group_unanswered :
    ¬ ∀ pre, pre <+: promoted → PerEnvironment canonicalText pre := by
  intro answers
  have text := sqlBlank_canonicalText churnPlan
  have first : Recording.accepted canonicalText ⟨churnPlan, "staging"⟩ = true :=
    accepted_promoted (by simp [promoted]) text
  have second : Recording.accepted canonicalText ⟨churnPlan, "production"⟩ = true :=
    accepted_promoted (by simp [promoted]) text
  have features : churnPlan.features ≠ [] := by simp [churnPlan]
  obtain ⟨f, hf⟩ := List.exists_mem_of_ne_nil _ features
  have row := (@mem_published canonicalText ⟨churnPlan, "production"⟩ _).mpr ⟨f, hf, rfl⟩
  have answered := ((answers promoted (List.prefix_refl _)).members "production" "churn" _).mpr
    ⟨⟨⟨churnPlan, "production"⟩, by simp [promoted], second, row⟩, rfl, rfl⟩
  obtain ⟨joined, _⟩ := mem_membersOfGroup.mp answered
  obtain ⟨g, hg, _, _, _, hrow⟩ := mem_joined.mp joined
  -- the row of the first environment stands under the hash, so the second got none
  have stood : groupRow (Recording.hash canonicalText ⟨churnPlan, "staging"⟩) churnPlan "staging" ∈
      (recordOne canonicalText GroupStore.empty ⟨churnPlan, "staging"⟩).groups := by
    rw [groups_recordOne first]
    exact Table.mem_insertNew.mpr (Or.inr ⟨rfl, by simp [GroupStore.empty]⟩)
  rw [recordAll, promoted, List.foldl_cons, List.foldl_cons, List.foldl_nil,
    groups_recordOne second] at hg
  rcases Table.mem_insertNew.mp hg with hg | ⟨_, fresh⟩
  · rw [groups_recordOne first] at hg
    have environment : "production" = g.environmentId :=
      congrArg GroupMembership.environmentId hrow
    rcases Table.mem_insertNew.mp hg with hg | ⟨rfl, _⟩
    · simp [GroupStore.empty] at hg
    · simp [groupRow] at environment
  · exact fresh _ stood rfl

end FeatureGen.Materialize
