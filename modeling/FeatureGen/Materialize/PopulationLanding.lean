import FeatureGen.Materialize.FeatureIRV2
import FeatureGen.Materialize.PlanEnvelope

/-! # The population a feature lands on

What each stage guarantees of a feature's grain and of its spine: the two compilers,
the gate that issues the token of a group, and the node that groups by the grain. Only
the compiler of version 1 compares the entities, and only the node compares the keys.
-/

namespace FeatureGen.Materialize

open FeatureGen.Overlay FeatureGen.Formula Checks

section Compilers

variable {isoDate : String → Bool} {py : Primitives} {R : Type} {ctx : CompileContext R}
  {roles : List String}

theorem compileIr_ok {admitted : AdmittedFeature} {decl : Option SpineSourceDeclaration}
    {envelope : Option PlanEnvelope} {ir : FormulaExecutionIRV1}
    (h : compileIr isoDate py ctx admitted roles decl envelope = .ok ir) :
    validateSpineDeclaration py.lower isoDate ctx.catalog decl roles = .ok ir.spine ∧
      fold py.lower admitted.grain.entity = fold py.lower ir.spine.declaration.entity ∧
      ir.grainEntity = admitted.grain.entity ∧
      ir.grainKeys = admitted.grain.keys.map (fold py.lower) := by
  obtain ⟨spine, hspine, h⟩ := bind_eq_ok.mp h
  obtain ⟨⟨⟩, hentity, h⟩ := bind_eq_ok.mp h
  obtain ⟨slots, _, h⟩ := bind_eq_ok.mp h
  obtain ⟨expressions, _, h⟩ := bind_eq_ok.mp h
  obtain ⟨_, h⟩ := check_bind_eq_ok.mp h
  cases h
  exact ⟨mapError_eq_ok.mp hspine, ensure_eq_ok.mp (mapError_eq_ok.mp hentity), rfl, rfl⟩

theorem planIr_ok {lower : String → String} {ir : FormulaExecutionIRV2}
    {policyReads : List PolicyRead} {planned : PlannedFormulaExecutionIRV2}
    (h : planIr lower ir policyReads = .ok planned) :
    planned.ir = ir ∧ planned.policyReads = policyReads ∧
      deriveReadSet lower ir policyReads = .ok planned.readSet := by
  obtain ⟨readSet, hreadSet, h⟩ := bind_eq_ok.mp h
  obtain ⟨_, h⟩ := check_bind_eq_ok.mp h
  cases h
  exact ⟨rfl, rfl, hreadSet⟩

theorem compileIrV2_ok {admitted : AdmittedFeatureV2} {spine : SpineSpec}
    {output : Option OutputPolicy} {resolve : String → Except String PolicyPayload}
    {realizationId : String → Option String} {planned : PlannedFormulaExecutionIRV2}
    (h : compileIrV2 py ctx admitted spine output roles resolve realizationId = .ok planned) :
    planned.ir.spine = spine ∧ planned.ir.grainEntity = admitted.grain.entity ∧
      admitted.grain.keys ≠ [] ∧
      planned.ir.grainKeys = admitted.grain.keys.map (fold py.lower) ∧
      deriveReadSet py.lower planned.ir planned.policyReads = .ok planned.readSet := by
  obtain ⟨slots, _, h⟩ := bind_eq_ok.mp h
  obtain ⟨hkeys, h⟩ := check_bind_eq_ok.mp h
  obtain ⟨policyReads, _, h⟩ := bind_eq_ok.mp h
  obtain ⟨expressions, _, h⟩ := bind_eq_ok.mp h
  obtain ⟨out, _, h⟩ := bind_eq_ok.mp h
  obtain ⟨_, h⟩ := check_bind_eq_ok.mp h
  obtain ⟨hir, hreads, hreadSet⟩ := planIr_ok (mapError_eq_ok.mp h)
  refine ⟨by rw [hir], by rw [hir], ?_, by rw [hir], by rw [hir, hreads]; exact hreadSet⟩
  intro none
  exact ensure_eq_ok.mp hkeys (by rw [none]; rfl)

end Compilers

theorem authorizeCompilationV2_ok {lower : String → String} {Refusal : Type}
    {refusal : List ReadElement → Option Refusal} {planned : List PlannedFormulaExecutionIRV2}
    {spine : SpineSpec} {roles : List String} {token : AuthorizedCompilationV2}
    (h : authorizeCompilationV2 lower refusal planned spine roles = .ok token) :
    token.planned = planned ∧ token.spine = spine ∧
      ∀ member ∈ planned, member.ir.spine.identityPayload = spine.identityPayload := by
  obtain ⟨_, h⟩ := check_bind_eq_ok.mp h
  obtain ⟨hmatched, h⟩ := check_bind_eq_ok.mp h
  obtain ⟨elements, _, h⟩ := bind_eq_ok.mp h
  obtain ⟨⟨⟩, _, h⟩ := bind_eq_ok.mp h
  obtain ⟨_, h⟩ := check_bind_eq_ok.mp h
  cases h
  refine ⟨rfl, rfl, fun member hmember => ?_⟩
  have matched := List.filter_eq_nil_iff.mp (List.length_eq_zero_iff.mp (ensure_eq_ok.mp hmatched))
    member hmember
  simpa using matched

theorem grainKeyColumns_ok {grainKeys landing columns : List String}
    {readSets : List (String × List String)}
    (h : grainKeyColumns grainKeys landing readSets = .ok columns) :
    columns = landing ∧
      ∃ grain, grainKeys.mapM (fun ref => columnOf ref "a grain key") = .ok grain ∧
        grain.Perm landing ∧ ∀ slot ∈ readSets, ∀ column ∈ grain, column ∈ slot.2 := by
  obtain ⟨grain, hgrain, h⟩ := bind_eq_ok.mp h
  obtain ⟨hread, h⟩ := check_bind_eq_ok.mp h
  obtain ⟨hsame, h⟩ := check_bind_eq_ok.mp h
  obtain rfl := Except.ok.inj h
  have sorted : KeySort.sortBy id grain = KeySort.sortBy id landing := ensure_eq_ok.mp hsame
  refine ⟨rfl, grain, hgrain, ?_, fun slot hslot column hcolumn => ?_⟩
  · refine (KeySort.perm_sortBy id grain).symm.trans ?_
    rw [sorted]
    exact KeySort.perm_sortBy id landing
  · obtain ⟨i, hi⟩ := List.mem_iff_getElem?.mp hslot
    have checked : sortedSet (grain.filter fun column => !slot.2.contains column) = [] :=
      ensure_eq_ok.mp (each_eq_ok.mp hread i slot hi)
    by_contra outside
    have mem : column ∈ sortedSet (grain.filter fun column => !slot.2.contains column) := by
      simp [sortedSet, hcolumn, outside]
    rw [checked] at mem
    exact List.not_mem_nil mem

/-- What is compiled, authorized and rendered keeps of a feature's population: version 1 compares
    its entity with the spine's and version 2 carries both as they are; the members of an issued
    token are of one spine; and a node groups by columns that are named as the landing keys. -/
theorem feature_lands_on_population (isoDate : String → Bool) (py : Primitives) {R : Type}
    (ctx : CompileContext R) (roles : List String) :
    (∀ (admitted : AdmittedFeature) (decl : Option SpineSourceDeclaration)
        (envelope : Option PlanEnvelope) (ir : FormulaExecutionIRV1),
      compileIr isoDate py ctx admitted roles decl envelope = .ok ir →
        validateSpineDeclaration py.lower isoDate ctx.catalog decl roles = .ok ir.spine ∧
        fold py.lower ir.grainEntity = fold py.lower ir.spine.declaration.entity ∧
        ir.grainKeys = admitted.grain.keys.map (fold py.lower)) ∧
    (∀ (admitted : AdmittedFeatureV2) (spine : SpineSpec) (output : Option OutputPolicy)
        (resolve : String → Except String PolicyPayload) (realizationId : String → Option String)
        (planned : PlannedFormulaExecutionIRV2),
      compileIrV2 py ctx admitted spine output roles resolve realizationId = .ok planned →
        planned.ir.spine = spine ∧ planned.ir.grainEntity = admitted.grain.entity ∧
        admitted.grain.keys ≠ [] ∧ planned.ir.grainKeys = admitted.grain.keys.map (fold py.lower)) ∧
    (∀ (Refusal : Type) (refusal : List ReadElement → Option Refusal)
        (planned : List PlannedFormulaExecutionIRV2) (spine : SpineSpec)
        (token : AuthorizedCompilationV2),
      authorizeCompilationV2 py.lower refusal planned spine roles = .ok token →
        token.planned = planned ∧ ∀ member ∈ token.planned,
          member.ir.spine.identityPayload = token.spine.identityPayload) ∧
    ∀ (grainKeys landing columns : List String) (readSets : List (String × List String)),
      grainKeyColumns grainKeys landing readSets = .ok columns →
        columns = landing ∧
        ∃ grain, grainKeys.mapM (fun ref => columnOf ref "a grain key") = .ok grain ∧
          grain.Perm landing ∧ ∀ slot ∈ readSets, ∀ column ∈ grain, column ∈ slot.2 := by
  refine ⟨?_, ?_, ?_, fun _ _ _ _ => grainKeyColumns_ok⟩
  · intro admitted decl envelope ir h
    obtain ⟨hspine, hentity, entity, keys⟩ := compileIr_ok h
    exact ⟨hspine, entity ▸ hentity, keys⟩
  · intro admitted spine output resolve realizationId planned h
    obtain ⟨hspine, entity, some_key, keys, _⟩ := compileIrV2_ok h
    exact ⟨hspine, entity, some_key, keys⟩
  · intro Refusal refusal planned spine token h
    obtain ⟨members, hspine, matched⟩ := authorizeCompilationV2_ok h
    rw [members, hspine]
    exact ⟨rfl, matched⟩

/-- The number of transactions of each merchant and instant. -/
def merchantCount : AdmittedFeatureV2 where
  featureName := "merchant_txn_count"
  proposalContentHash := "p0"
  grain := ⟨"merchant", ["bank::public.txn.merchant", "bank::public.txn.txn_ts"]⟩
  body := .unary (countOver .day)
  authoringRunId := "run-0002"

def compileMerchantCount : Except (FeatureStop Empty) PlannedFormulaExecutionIRV2 :=
  compileIrV2 letters bankContext merchantCount customerSnapshotSpec
    (some ⟨"integer", none, none, "additive", false⟩) [] (fun _ => .error "no policy")
    fun _ => none

theorem merchantCount_compiles : compileMerchantCount.toOption.isSome = true := by decide +kernel

/-- The number of transactions of each customer. -/
def customerCount : AdmittedFeatureV2 :=
  { merchantCount with
    featureName := "customer_txn_count"
    grain := ⟨"customer", ["bank::public.txn.cif_id"]⟩ }

def compileCustomerCount : Except (FeatureStop Empty) PlannedFormulaExecutionIRV2 :=
  compileIrV2 letters bankContext customerCount customerSnapshotSpec
    (some ⟨"integer", none, none, "additive", false⟩) [] (fun _ => .error "no policy")
    fun _ => none

def authorizeCustomerCount (planned : PlannedFormulaExecutionIRV2) :
    Except (String ⊕ Empty) AuthorizedCompilationV2 :=
  authorizeCompilationV2 letters.lower (fun _ => none) [planned] customerSnapshotSpec []

/-- What the count of a customer's transactions compiles to. -/
def customerFeature (ir : ExpressionExecutionIR) : FormulaExecutionIRV2 where
  featureName := "customer_txn_count"
  formulaContentHash := "p0"
  finalOperation := .identity
  zeroDenominator := none
  grainEntity := "customer"
  grainKeys := ["bank::public.txn.cif_id"].map (fold letters.lower)
  expressions := [ir]
  rowSelections := []
  policies := []
  spine := customerSnapshotSpec
  outputPolicy := ⟨"integer", none, none, "additive", false⟩
  authoringRunId := "run-0002"

section Issued

variable {ir : ExpressionExecutionIR}
  {entries own : List ((String × String) × String × ReadElementKind)}

theorem compileCustomerCount_eq_ok (hir : compileCountRows .day = .ok ir)
    (keyed : (unionEntries [("customer_txn_count", [ir])] customerSnapshotSpec []).mapM
      (keyedEntry letters.lower) = .ok entries) :
    compileCustomerCount =
      .ok ⟨customerFeature ir, [], sortedSet (sortedRefs (Grouping.collect entries) ++ [])⟩ := by
  refine bind_eq_ok.mpr ⟨[("body.expr", countOver .day)], rfl, ?_⟩
  refine check_bind_eq_ok.mpr ⟨rfl, ?_⟩
  refine bind_eq_ok.mpr ⟨[], rfl, ?_⟩
  refine bind_eq_ok.mpr ⟨[ir], compileSlots_count rfl hir, ?_⟩
  refine bind_eq_ok.mpr ⟨_, rfl, ?_⟩
  refine check_bind_eq_ok.mpr ⟨mapError_eq_ok.mpr ?_, mapError_eq_ok.mpr ?_⟩
  · refine check_bind_eq_ok.mpr ⟨rfl, check_bind_eq_ok.mpr ⟨?_, rfl⟩⟩
    exact ensure_eq_ok.mpr (List.nodup_singleton _)
  · refine bind_eq_ok.mpr ⟨sortedSet (sortedRefs (Grouping.collect entries) ++ []), ?_, rfl⟩
    refine bind_eq_ok.mpr ⟨sortedRefs (Grouping.collect entries), ?_, rfl⟩
    exact bind_eq_ok.mpr ⟨Grouping.collect entries, bind_eq_ok.mpr ⟨entries, keyed, rfl⟩, rfl⟩

/-- A token is issued where the spine's own refs are among those of the union. -/
theorem authorizeCustomerCount_eq_ok {readSet : List String}
    (keyed : (unionEntries [("customer_txn_count", [ir])] customerSnapshotSpec []).mapM
      (keyedEntry letters.lower) = .ok entries)
    (spine : (spineEntries customerSnapshotSpec).mapM (keyedEntry letters.lower) = .ok own)
    (read : ∀ ref ∈ readSet, ref ∈ sortedRefs (Grouping.collect entries))
    (within : ∀ ref ∈ sortedRefs (Grouping.collect own),
      ref ∈ sortedRefs (Grouping.collect entries)) :
    authorizeCustomerCount ⟨customerFeature ir, [], readSet⟩ =
      .ok ⟨[⟨customerFeature ir, [], readSet⟩], customerSnapshotSpec,
        sortedRefs (Grouping.collect entries), []⟩ := by
  refine check_bind_eq_ok.mpr ⟨rfl, check_bind_eq_ok.mpr ⟨?_, ?_⟩⟩
  · simp [customerFeature]
  refine bind_eq_ok.mpr ⟨Grouping.collect entries, mapError_eq_ok.mpr ?_, ?_⟩
  · exact bind_eq_ok.mpr ⟨entries, keyed, rfl⟩
  refine bind_eq_ok.mpr ⟨(), rfl, check_bind_eq_ok.mpr ⟨mapError_eq_ok.mpr ?_, rfl⟩⟩
  refine check_bind_eq_ok.mpr ⟨rfl, bind_eq_ok.mpr ⟨sortedRefs (Grouping.collect own), ?_, ?_⟩⟩
  · exact bind_eq_ok.mpr ⟨Grouping.collect own, bind_eq_ok.mpr ⟨own, spine, rfl⟩, rfl⟩
  · refine ensure_eq_ok.mpr (sortedSet_eq_nil.mpr (List.filter_eq_nil_iff.mpr fun ref href => ?_))
    have authorized : ref ∈ sortedRefs (Grouping.collect entries) := by
      simp only [List.flatMap_cons, List.flatMap_nil, List.append_nil, List.mem_append] at href
      exact href.elim (read ref) (within ref)
    simp [authorized]

theorem customerCount_issued : ∃ planned token, compileCustomerCount = .ok planned ∧
    authorizeCustomerCount planned = .ok token := by
  obtain ⟨ir, hir, facts⟩ := (Option.any_eq_true _ _).mp days_compile
  obtain ⟨entries, own, keyed, spine, within⟩ := countEntries_keyed
  rw [← count_entries facts "customer_txn_count"] at keyed
  refine ⟨_, _, compileCustomerCount_eq_ok (toOption_eq_some.mp hir) keyed,
    authorizeCustomerCount_eq_ok keyed spine (fun ref href => ?_) within⟩
  simpa [sortedSet] using href

end Issued

/-- The count of a customer's transactions keeps its population, in both versions, in the token
    and in its node. -/
theorem feature_lands_on_population_count :
    (∃ ir, compileCount .day = .ok ir ∧
      fold letters.lower ir.grainEntity = fold letters.lower ir.spine.declaration.entity) ∧
    (∃ planned token, compileCustomerCount = .ok planned ∧
      planned.ir.spine = customerSnapshotSpec ∧ planned.ir.grainEntity = "customer" ∧
      planned.ir.grainKeys = customerCount.grain.keys.map (fold letters.lower) ∧
      authorizeCustomerCount planned = .ok token ∧ token.planned = [planned] ∧
      planned.ir.spine.identityPayload = token.spine.identityPayload) ∧
    grainKeyColumns ["bank::public.txn.cif_id"] ["cif_id"] [("body.expr", ["cif_id", "txn_ts"])] =
      .ok ["cif_id"] ∧
    ∃ grain, ["bank::public.txn.cif_id"].mapM (fun ref => columnOf ref "a grain key") =
      .ok grain ∧ grain.Perm ["cif_id"] := by
  have lands := feature_lands_on_population (fun _ => true) letters bankContext []
  have columns : grainKeyColumns ["bank::public.txn.cif_id"] ["cif_id"]
      [("body.expr", ["cif_id", "txn_ts"])] = .ok ["cif_id"] := by
    decide +kernel
  refine ⟨?_, ?_, columns, ?_⟩
  · obtain ⟨ir, hir, _⟩ := count_compiles days_compile
    exact ⟨_, hir, (lands.1 _ _ _ _ hir).2.1⟩
  · obtain ⟨planned, token, compiled, htoken⟩ := customerCount_issued
    obtain ⟨spine, entity, _, keys⟩ := lands.2.1 _ _ _ _ _ _ compiled
    obtain ⟨members, matched⟩ := lands.2.2.1 _ _ _ _ _ htoken
    exact ⟨planned, token, compiled, spine, entity, keys, htoken, members,
      matched planned (by simp [members])⟩
  · obtain ⟨_, grain, hgrain, perm, _⟩ := lands.2.2.2 _ _ _ _ columns
    exact ⟨grain, hgrain, perm⟩

/-- A merchant's count is planned on the customers, by two keys where the spine has one. -/
theorem merchant_lands_on_customers :
    ¬ ∀ (admitted : AdmittedFeatureV2) (spine : SpineSpec) (output : Option OutputPolicy)
        (planned : PlannedFormulaExecutionIRV2),
      compileIrV2 letters bankContext admitted spine output [] (fun _ => .error "no policy")
          (fun _ => none) = .ok planned →
        fold letters.lower admitted.grain.entity = fold letters.lower spine.declaration.entity ∧
          admitted.grain.keys.length = spine.declaration.orderedKeyRefs.length := by
  intro landed
  obtain ⟨planned, hplanned⟩ := isSome_toOption.mp merchantCount_compiles
  exact absurd (landed _ _ _ _ hplanned).2 (by decide)

end FeatureGen.Materialize
