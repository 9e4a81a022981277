import Mathlib
import FeatureGen.Materialize.FeatureIR
import FeatureGen.Materialize.PopulationKeys
import FeatureGen.Materialize.ReferenceCompleteness

/-! # Frozen plans

A compiled feature that passes the comparison with its plan reads nothing that the
plan does not name, apart from what compilation always adds; and how the refs of the
plan are spelled does not matter. The unit of the window is not compared.

The examples count the transactions of each customer of a snapshot, over one plan.
-/

namespace FeatureGen.Materialize

open FeatureGen.Overlay FeatureGen.Formula Checks

def foldedParts (lower : String → String) (parts : LogicalParts) : FoldedRef where
  source := fold lower parts.source
  schema := fold lower parts.schema
  table := fold lower parts.table
  column := (parts.column.map (fold lower)).getD ""

/-- What a text names: the parts of a logical ref, or those of an object ref in a catalog. -/
inductive Spells (catalogSource : String) : String → LogicalParts → Prop
  | logical {ref : String} {parts : LogicalParts} (h : parseRef ref = .ok parts) :
      Spells catalogSource ref parts
  | object {ref schema table : String} {column : Option String}
      (bare : Text.partition "::" ref = none)
      (path : Text.split '.' ref = [schema, table] ++ column.toList) :
      Spells catalogSource ref ⟨catalogSource, schema, table, column⟩

section Refs

variable {lower : String → String} {catalogSource ref : String} {parts : LogicalParts}

theorem foldedPath_parts (source schema table : String) (column : Option String) :
    foldedPath (fold lower source) (([schema, table] ++ column.toList).map (fold lower)) =
      foldedParts lower ⟨source, schema, table, column⟩ := by
  cases column <;> rfl

theorem path_of_parse (h : parseRef ref = .ok parts) :
    ∃ path, Text.partition "::" ref = some (parts.source, path) ∧
      Text.split '.' path = [parts.schema, parts.table] ++ parts.column.toList := by
  unfold parseRef at h
  split at h
  · cases h
  · next source path hpartition =>
    split at h
    · cases h
    · split at h
      · next schema table hpath =>
        cases h
        exact ⟨path, hpartition, hpath⟩
      · next schema table column hpath =>
        cases h
        exact ⟨path, hpartition, hpath⟩
      · cases h

theorem Spells.envelopeRef_eq (h : Spells catalogSource ref parts) :
    envelopeRef lower catalogSource ref = foldedParts lower parts := by
  cases h with
  | logical hparse =>
      obtain ⟨path, hpartition, hpath⟩ := path_of_parse hparse
      simp only [envelopeRef, hpartition, Option.getD_some, hpath]
      exact foldedPath_parts _ _ _ _
  | object bare hpath =>
      simp only [envelopeRef, bare, Option.getD_none, hpath]
      exact foldedPath_parts _ _ _ _

/-- Two texts that name the same column, up to case and padding. -/
def SameColumn (lower : String → String) (catalogSource a b : String) : Prop :=
  ∃ p q, Spells catalogSource a p ∧ Spells catalogSource b q ∧
    foldedParts lower p = foldedParts lower q

theorem SameColumn.envelopeRef_eq {a b : String} (h : SameColumn lower catalogSource a b) :
    envelopeRef lower catalogSource a = envelopeRef lower catalogSource b := by
  obtain ⟨p, q, ha, hb, same⟩ := h
  rw [ha.envelopeRef_eq, hb.envelopeRef_eq, same]

end Refs

/-- Every ref that a compiled feature reads. -/
def FormulaExecutionIRV1.reads (ir : FormulaExecutionIRV1) : List String :=
  (unionReads [(ir.featureName, ir.expressions)] ir.spine []).map (·.1)

section Passing

variable {lower : String → String} {R : Type} {ir : FormulaExecutionIRV1}
  {envelope : PlanEnvelope}

theorem checkReadSet_eq_ok {compiled : List String} (names : envelope.readSet ≠ []) :
    checkReadSet lower ir envelope compiled = .ok () ↔ ∀ ref ∈ compiled,
      (∃ named ∈ envelope.readSet, envelopeRef lower envelope.catalogSource named =
        envelopeRef lower envelope.catalogSource ref) ∨
      ∃ added ∈ additionalRefs ir, envelopeRef lower envelope.catalogSource added =
        envelopeRef lower envelope.catalogSource ref := by
  unfold checkReadSet
  rw [ensure_eq_ok, or_iff_left names, List.filter_eq_nil_iff, List.forall_mem_map]
  refine forall₂_congr fun ref _ => ?_
  simp only [allowedAdditions, Bool.and_eq_true, Bool.not_eq_true', List.contains_eq_mem,
    decide_eq_false_iff_not, List.mem_map]
  rw [← not_or, not_not]

theorem checkPopulation_eq_ok (declared : fold lower envelope.populationRef ≠ "") :
    checkPopulation lower ir envelope = .ok () ↔
      (envelopeRef lower envelope.catalogSource ir.spine.declaration.sourceTableRef).table =
        fold lower envelope.populationRef := by
  simp [checkPopulation, declared]

theorem checkWindows_eq_ok {length : ℤ} (declared : envelope.window = some length) :
    each (fun _ e => checkWindowLength ir envelope e) ir.expressions = .ok () ↔
      ∀ e ∈ ir.expressions, e.pit.windowLength = length :=
  each_eq_ok_of_forall fun _ e => by simp [checkWindowLength, declared]

theorem validatePlanEnvelope_eq_ok (names : envelope.readSet ≠ []) :
    validatePlanEnvelope lower ir (some envelope) = (.ok () : Except (FeatureStop R) Unit) ↔
      ∃ compiled,
        physicalReadSetOf lower [(ir.featureName, ir.expressions)] ir.spine = .ok compiled ∧
        checkReadSet lower ir envelope compiled = .ok () ∧
        checkPopulation lower ir envelope = .ok () ∧
        each (fun _ e => checkWindowLength ir envelope e) ir.expressions = .ok () := by
  have passes : ∀ compiled, checkEnvelope lower ir envelope compiled = .ok () ↔
      checkReadSet lower ir envelope compiled = .ok () ∧
        checkPopulation lower ir envelope = .ok () ∧
        each (fun _ e => checkWindowLength ir envelope e) ir.expressions = .ok () := by
    intro compiled
    rw [checkEnvelope, check_bind_eq_ok, check_bind_eq_ok]
  simp only [validatePlanEnvelope, names, if_false, bind_eq_ok, mapError_eq_ok, passes]

theorem mem_reads_of_physicalReadSet {compiled : List String}
    (h : physicalReadSetOf lower [(ir.featureName, ir.expressions)] ir.spine = .ok compiled)
    {ref : String} (href : ref ∈ compiled) : ref ∈ ir.reads := by
  obtain ⟨elements, helements, hsorted⟩ := bind_eq_ok.mp h
  obtain rfl := Except.ok.inj hsorted
  obtain ⟨e, he, rfl⟩ := mem_sortedRefs.mp href
  obtain ⟨_, kind, hkind⟩ := (unionElements_isUnion helements).named e he
  exact List.mem_map.mpr ⟨_, hkind, rfl⟩

theorem read_of_physicalReadSet {compiled : List String}
    (h : physicalReadSetOf lower [(ir.featureName, ir.expressions)] ir.spine = .ok compiled)
    {ref : String} (hread : ref ∈ ir.reads) :
    ∃ read ∈ compiled, ∃ key, nodeKey lower read = .ok key ∧ nodeKey lower ref = .ok key := by
  obtain ⟨elements, helements, hsorted⟩ := bind_eq_ok.mp h
  obtain rfl := Except.ok.inj hsorted
  obtain ⟨entry, hentry, rfl⟩ := List.mem_map.mp hread
  obtain ⟨read, hmem, _, hkey⟩ := exists_mem_sortedRefs (unionElements_isUnion helements) hentry
  exact ⟨read, hmem, hkey⟩

end Passing

def FeatureStop.code {R : Type} : FeatureStop R → Option FeatureRefusalCode
  | .refused refusal => some refusal.code
  | _ => none

section Spelling

variable {lower : String → String} {R : Type} {ir : FormulaExecutionIRV1}
  {envelope : PlanEnvelope} {respelled : List String}

theorem folded_of_respelled
    (h : List.Forall₂ (SameColumn lower envelope.catalogSource) envelope.readSet respelled) :
    respelled.map (envelopeRef lower envelope.catalogSource) =
      envelope.readSet.map (envelopeRef lower envelope.catalogSource) := by
  generalize envelope.readSet = readSet at h
  induction h with
  | nil => rfl
  | cons first _ ih => rw [List.map_cons, List.map_cons, ih, first.envelopeRef_eq]

/-- The verdict is the same, and so is the code of a refusal, however the plan's refs are
    spelled. -/
theorem validatePlanEnvelope_respelled
    (h : List.Forall₂ (SameColumn lower envelope.catalogSource) envelope.readSet respelled) :
    (validatePlanEnvelope lower ir (some { envelope with readSet := respelled })).mapError
        (@FeatureStop.code R) =
      (validatePlanEnvelope lower ir (some envelope)).mapError (@FeatureStop.code R) := by
  have folded := folded_of_respelled h
  have empty : respelled = [] ↔ envelope.readSet = [] := by
    rw [← List.length_eq_zero_iff, ← List.length_eq_zero_iff, h.length_eq]
  simp only [validatePlanEnvelope, checkEnvelope, checkReadSet, mapError_bind, mapError_mapError,
    mapError_ensure, folded, empty]
  rfl

end Spelling

theorem exists_parse_of_nodeKey {lower : String → String} {ref : String} {key : String × String}
    (h : nodeKey lower ref = .ok key) : ∃ parts, parseRef ref = .ok parts := by
  obtain ⟨parts, hparts, _⟩ := bind_eq_ok.mp h
  exact ⟨parts, hparts⟩

/-- A feature that passes the comparison with a plan that names its read set, its population and
    its window reads nothing else, apart from the spine's columns, the availability columns and the
    source relations; its population's table and the length of every window are the plan's; and the
    verdict is the same however the read set is spelled. -/
theorem plan_not_widened {lower : String → String} {R : Type} {ir : FormulaExecutionIRV1}
    {envelope : PlanEnvelope} {length : ℤ} (names : envelope.readSet ≠ [])
    (population : fold lower envelope.populationRef ≠ "")
    (window : envelope.window = some length) :
    (validatePlanEnvelope lower ir (some envelope) = (.ok () : Except (FeatureStop R) Unit) →
      (∀ ref ∈ ir.reads, ∃ read ∈ ir.reads,
        (∃ key, nodeKey lower read = .ok key ∧ nodeKey lower ref = .ok key) ∧
        ∃ parts, parseRef read = .ok parts ∧
          ((∃ named ∈ envelope.readSet,
              envelopeRef lower envelope.catalogSource named = foldedParts lower parts) ∨
            ∃ added ∈ additionalRefs ir,
              envelopeRef lower envelope.catalogSource added = foldedParts lower parts)) ∧
      (envelopeRef lower envelope.catalogSource ir.spine.declaration.sourceTableRef).table =
        fold lower envelope.populationRef ∧
      ∀ e ∈ ir.expressions, e.pit.windowLength = length) ∧
    ∀ respelled, List.Forall₂ (SameColumn lower envelope.catalogSource) envelope.readSet respelled →
      (validatePlanEnvelope lower ir (some { envelope with readSet := respelled })).mapError
          (@FeatureStop.code R) =
        (validatePlanEnvelope lower ir (some envelope)).mapError (@FeatureStop.code R) := by
  refine ⟨fun passed => ?_, fun respelled h => validatePlanEnvelope_respelled h⟩
  obtain ⟨compiled, hcompiled, hread, hpopulation, hwindows⟩ :=
    (validatePlanEnvelope_eq_ok names).mp passed
  refine ⟨fun ref href => ?_, (checkPopulation_eq_ok population).mp hpopulation,
    (checkWindows_eq_ok window).mp hwindows⟩
  obtain ⟨read, hmem, key, hkey, hsame⟩ := read_of_physicalReadSet hcompiled href
  obtain ⟨parts, hparts⟩ := exists_parse_of_nodeKey hkey
  have explained := (checkReadSet_eq_ok names).mp hread read hmem
  rw [(Spells.logical hparts).envelopeRef_eq] at explained
  exact ⟨read, mem_reads_of_physicalReadSet hcompiled hmem, ⟨key, hkey, hsame⟩, parts, hparts,
    explained⟩

def customerSnapshot : SpineSourceDeclaration where
  entity := "customer"
  sourceTableRef := "crm::public.customers"
  orderedKeyRefs := ["crm::public.customers.cif_id"]
  populationSemantics := .currentCompletePopulation
  availabilityRef := none
  snapshotPolicy := .currentSnapshot "2026-07-06"
  declarationReason := "the customer master"
  declarationVersion := 1

def bankContext : CompileContext Empty where
  catalog :=
    { nodes := [customerNode none false false, customerNode (some "cif_id") true false,
        txnNode none false, txnNode (some "cif_id") false, txnNode (some "txn_ts") false,
        txnNode (some "posted_ts") true]
      factState := txnContext.catalog.factState
      allowedClasses := fun _ => []
      operationalValue := fun _ _ => ⟨"resolved", some "true"⟩
      effectiveEntity := customerCatalog.effectiveEntity }
  numberText n := String.ofList n.text
  schemaMessage _ _ := ""
  deriveRequirement _ := .ok ⟨⟨"bank", "core", "txn"⟩, .null⟩
  planTraversal _ := .ok []

/-- The transactions of ninety units. -/
def countOver (unit : WindowUnit) : AggregateExpressionV3 where
  aggregation := .countRows
  operand := none
  sourceRelation := ⟨"bank::public.txn"⟩
  filter := none
  window := { (topShare none 90).window with unit := unit }
  aggregationArgument := none
  secondOperand := none
  authorityRefs := none
  rowSelections := []

def txnCount (unit : WindowUnit) : AdmittedFeature where
  featureName := "txn_count"
  formulaContentHash := "f0"
  grain := ⟨"Customer", ["bank::public.txn.cif_id"]⟩
  body := .unary (countOver unit)
  output := ⟨"integer", none, none, "additive", false⟩
  authoringRunId := "run-0001"

def txnPlan : PlanEnvelope where
  catalogSource := "bank"
  readSet := ["public.txn.cif_id", "public.txn.txn_ts"]
  populationRef := "customers"
  window := some 90
  pit := "trailing 90d observation window over txn_ts events"

def compileCount (unit : WindowUnit) : Except (FeatureStop Empty) FormulaExecutionIRV1 :=
  compileIr (fun _ => true) letters bankContext (txnCount unit) [] (some customerSnapshot)
    (some txnPlan)

def customerSnapshotSpec : SpineSpec where
  declaration := customerSnapshot
  readSet := ["crm::public.customers.cif_id"]
  governedGrainRefs := ["crm::public.customers.cif_id"]
  rolesUsed := []

def txnIdentity : PhysicalIdentity := ⟨"bank", "core", "txn"⟩

def countReads : ReadSet :=
  [⟨"bank::public.txn", txnIdentity, none, [.sourceTable]⟩,
    ⟨"bank::public.txn.txn_ts", txnIdentity, some "txn_ts", [.eventTime]⟩,
    ⟨"bank::public.txn.posted_ts", txnIdentity, some "posted_ts", [.availability]⟩,
    ⟨"bank::public.txn.cif_id", txnIdentity, some "cif_id", [.grainKey]⟩]

def countPit (unit : WindowUnit) : PitSpec :=
  pitOf (countOver unit).window "bank::public.txn.posted_ts" ⟨"posted_ts", .postedAt, none⟩

/-- What the count compiles to, as far as a plan is compared with it. -/
def countFacts (unit : WindowUnit) (ir : ExpressionExecutionIR) : Bool :=
  ir.exprPath = "body.expr" && ir.physicalReadSet = countReads && ir.steps = [] &&
    ir.pit = countPit unit

def countFeature (ir : ExpressionExecutionIR) : FormulaExecutionIRV1 where
  featureName := "txn_count"
  formulaContentHash := "f0"
  finalOperation := .identity
  zeroDenominator := none
  grainEntity := "Customer"
  grainKeys := ["bank::public.txn.cif_id"]
  expressions := [ir]
  spine := customerSnapshotSpec
  outputPolicy := ⟨"integer", none, none, "additive", false⟩
  authoringRunId := "run-0001"

def compileCountRows (unit : WindowUnit) : Except (CompileStop Empty) ExpressionExecutionIR :=
  compileExpression letters bankContext "body.expr" (countOver unit) ["bank::public.txn.cif_id"] []

theorem count_evaluated :
    (compileCountRows .day).toOption.any (countFacts .day) = true ∧
    (compileCountRows .week).toOption.any (countFacts .week) = true ∧
    (validateSpineDeclaration letters.lower (fun _ => true)
      bankContext.catalog (some customerSnapshot) []).toOption = some customerSnapshotSpec ∧
    checkGrainEntity letters (txnCount .day).grain customerSnapshotSpec = .ok () ∧
    ["bank::public.txn.cif_id"].map (fold letters.lower) = ["bank::public.txn.cif_id"] := by
  refine ⟨?_, ?_, rfl, rfl, ?_⟩
  · decide +kernel
  · decide +kernel
  · decide +kernel

theorem days_compile : (compileCountRows .day).toOption.any (countFacts .day) = true :=
  count_evaluated.1

theorem weeks_compile : (compileCountRows .week).toOption.any (countFacts .week) = true :=
  count_evaluated.2.1

theorem snapshot_valid : (validateSpineDeclaration letters.lower (fun _ => true)
    bankContext.catalog (some customerSnapshot) []).toOption = some customerSnapshotSpec :=
  count_evaluated.2.2.1

theorem count_grain : checkGrainEntity letters (txnCount .day).grain customerSnapshotSpec =
    .ok () :=
  count_evaluated.2.2.2.1

theorem count_keys :
    ["bank::public.txn.cif_id"].map (fold letters.lower) = ["bank::public.txn.cif_id"] :=
  count_evaluated.2.2.2.2

section Count

variable {unit : WindowUnit} {ir : ExpressionExecutionIR}

theorem countFacts_iff : countFacts unit ir = true ↔ ir.exprPath = "body.expr" ∧
    ir.physicalReadSet = countReads ∧ ir.steps = [] ∧ ir.pit = countPit unit := by
  simp [countFacts, and_assoc]

theorem compileSlots_count {grain : Grain} (keys : grain.keys = ["bank::public.txn.cif_id"])
    (hir : compileCountRows unit = .ok ir) :
    compileSlots letters bankContext grain [] [("body.expr", countOver unit)] = .ok [ir] := by
  refine mapM_eq_ok.mpr (.cons ?_ .nil)
  rw [keys]
  exact congrArg (Except.mapError FeatureStop.expression) hir

theorem compileCount_eq_ok (hir : compileCountRows unit = .ok ir)
    (valid : validatePlanEnvelope letters.lower (countFeature ir) (some txnPlan) =
      (.ok () : Except (FeatureStop Empty) Unit)) :
    compileCount unit = .ok (countFeature ir) := by
  refine bind_eq_ok.mpr ⟨customerSnapshotSpec, ?_, ?_⟩
  · exact mapError_eq_ok.mpr (toOption_eq_some.mp snapshot_valid)
  refine bind_eq_ok.mpr ⟨(), mapError_eq_ok.mpr count_grain, ?_⟩
  refine bind_eq_ok.mpr ⟨[("body.expr", countOver unit)], rfl, ?_⟩
  refine bind_eq_ok.mpr ⟨[ir], compileSlots_count rfl hir, ?_⟩
  have feature : (countFeature ir).grainKeys =
      (txnCount unit).grain.keys.map (fold letters.lower) :=
    count_keys.symm
  rw [← feature]
  exact check_bind_eq_ok.mpr ⟨valid, rfl⟩

def countEntries : List (Except String (String × ReadElementKind)) :=
  [.ok ("bank::public.txn", .expressionRead), .ok ("bank::public.txn.txn_ts", .expressionRead),
    .ok ("bank::public.txn.posted_ts", .expressionRead),
    .ok ("bank::public.txn.cif_id", .expressionRead),
    .ok ("bank::public.txn.posted_ts", .availability), .ok ("crm::public.customers", .spineSource),
    .ok ("crm::public.customers.cif_id", .spineKey),
    .ok ("crm::public.customers.cif_id", .spineRead)]

theorem plan_evaluated :
    (countEntries.mapM (keyedEntry letters.lower)).toOption.any (fun entries =>
      ((spineEntries customerSnapshotSpec).mapM (keyedEntry letters.lower)).toOption.any fun own =>
        ((Grouping.collect own).map (·.first)).all
          ((Grouping.collect entries).map (·.first)).contains) = true ∧
    (envelopeRef letters.lower "bank" "crm::public.customers").table =
      fold letters.lower "customers" ∧
    envelopeRef letters.lower "bank" "public.txn.txn_ts" =
      envelopeRef letters.lower "bank" "bank::public.txn.txn_ts" ∧
    envelopeRef letters.lower "bank" "public.txn.cif_id" =
      envelopeRef letters.lower "bank" "bank::public.txn.cif_id" ∧
    fold letters.lower txnPlan.populationRef ≠ "" := by
  decide +kernel

/-- What the count and its spine read has its nodes, and the spine's are read among them. -/
theorem countEntries_keyed : ∃ entries own,
    countEntries.mapM (keyedEntry letters.lower) = .ok entries ∧
      (spineEntries customerSnapshotSpec).mapM (keyedEntry letters.lower) = .ok own ∧
      ∀ ref ∈ sortedRefs (Grouping.collect own),
        ref ∈ sortedRefs (Grouping.collect entries) := by
  obtain ⟨entries, hentries, h⟩ := (Option.any_eq_true _ _).mp plan_evaluated.1
  obtain ⟨own, hown, within⟩ := (Option.any_eq_true _ _).mp h
  refine ⟨entries, own, toOption_eq_some.mp hentries, toOption_eq_some.mp hown, fun ref href => ?_⟩
  simp only [sortedRefs, sortedSet, KeySort.mem_sortBy, List.mem_dedup] at href ⊢
  exact List.contains_iff_mem.mp (List.all_eq_true.mp within ref href)

theorem count_entries (facts : countFacts unit ir = true) (featureName : String) :
    unionEntries [(featureName, [ir])] customerSnapshotSpec [] = countEntries := by
  obtain ⟨_, hreads, hsteps, hpit⟩ := countFacts_iff.mp facts
  simp [unionEntries, expressionEntries, spineEntries, hreads, hsteps, hpit, countReads, countPit,
    pitOf, customerSnapshotSpec, customerSnapshot, countEntries]

theorem count_population :
    (envelopeRef letters.lower "bank" "crm::public.customers").table =
      fold letters.lower "customers" :=
  plan_evaluated.2.1

theorem count_named : envelopeRef letters.lower "bank" "public.txn.txn_ts" =
      envelopeRef letters.lower "bank" "bank::public.txn.txn_ts" ∧
    envelopeRef letters.lower "bank" "public.txn.cif_id" =
      envelopeRef letters.lower "bank" "bank::public.txn.cif_id" :=
  ⟨plan_evaluated.2.2.1, plan_evaluated.2.2.2.1⟩

theorem count_explained (facts : countFacts unit ir = true) :
    ∀ ref ∈ (countFeature ir).reads, (∃ named ∈ txnPlan.readSet,
        envelopeRef letters.lower "bank" named = envelopeRef letters.lower "bank" ref) ∨
      ∃ added ∈ additionalRefs (countFeature ir),
        envelopeRef letters.lower "bank" added = envelopeRef letters.lower "bank" ref := by
  have entries : unionEntries [((countFeature ir).featureName, (countFeature ir).expressions)]
    (countFeature ir).spine [] = countEntries := count_entries facts _
  obtain ⟨_, hreads, _, hpit⟩ := countFacts_iff.mp facts
  have added : additionalRefs (countFeature ir) = ["crm::public.customers",
      "crm::public.customers.cif_id", "crm::public.customers.cif_id",
      "bank::public.txn.posted_ts", "bank::public.txn"] := by
    simp [additionalRefs, countFeature, customerSnapshotSpec, customerSnapshot, hpit, hreads,
      countReads, countPit, pitOf]
  intro ref href
  have listed : ref ∈ ["bank::public.txn.txn_ts", "bank::public.txn.cif_id"] ∨
      ref ∈ additionalRefs (countFeature ir) := by
    rw [added]
    simp only [FormulaExecutionIRV1.reads, unionReads, entries, countEntries] at href
    simp [Except.toOption] at href ⊢
    tauto
  obtain listed | listed := listed
  · left
    simp only [List.mem_cons, List.not_mem_nil, or_false] at listed
    obtain rfl | rfl := listed
    · exact ⟨_, by simp [txnPlan], count_named.1⟩
    · exact ⟨_, by simp [txnPlan], count_named.2⟩
  · exact Or.inr ⟨ref, listed, rfl⟩

theorem count_valid (facts : countFacts unit ir = true) :
    validatePlanEnvelope letters.lower (countFeature ir) (some txnPlan) =
      (.ok () : Except (FeatureStop Empty) Unit) := by
  obtain ⟨entries, _, hentries, _⟩ := countEntries_keyed
  rw [← count_entries facts "txn_count"] at hentries
  have compiled : physicalReadSetOf letters.lower
      [((countFeature ir).featureName, (countFeature ir).expressions)] (countFeature ir).spine =
        .ok (sortedRefs (Grouping.collect entries)) :=
    bind_eq_ok.mpr ⟨_, bind_eq_ok.mpr ⟨entries, hentries, rfl⟩, rfl⟩
  obtain ⟨_, _, _, hpit⟩ := countFacts_iff.mp facts
  refine (validatePlanEnvelope_eq_ok (by decide)).mpr ⟨_, compiled, ?_, ?_, ?_⟩
  · exact (checkReadSet_eq_ok (by decide)).mpr fun ref href =>
      count_explained facts ref (mem_reads_of_physicalReadSet compiled href)
  · exact ensure_eq_ok.mpr (Or.inr count_population)
  · exact (checkWindows_eq_ok rfl).mpr fun e he => by
      rw [List.mem_singleton.mp he, hpit]
      rfl

end Count

theorem count_compiles (h : (compileCountRows unit).toOption.any (countFacts unit) = true) :
    ∃ ir, compileCount unit = .ok (countFeature ir) ∧ countFacts unit ir = true := by
  obtain ⟨ir, hir, facts⟩ := (Option.any_eq_true _ _).mp h
  exact ⟨ir, compileCount_eq_ok (toOption_eq_some.mp hir) (count_valid facts), facts⟩

/-- Ninety days and ninety weeks are compiled under one plan, which declares one unit at most. -/
theorem window_unit_not_compared :
    ¬ ∃ declaredUnit : PlanEnvelope → String, ∀ unit ir, compileCount unit = .ok ir →
      ∀ e ∈ ir.expressions, e.pit.windowUnit = declaredUnit txnPlan := by
  intro h
  obtain ⟨declaredUnit, declared⟩ := h
  have told : ∀ unit, (compileCountRows unit).toOption.any (countFacts unit) = true →
      StrEnum.value unit = declaredUnit txnPlan := by
    intro unit hcompile
    obtain ⟨ir, hir, facts⟩ := count_compiles hcompile
    have same := declared unit _ hir ir List.mem_cons_self
    rwa [(countFacts_iff.mp facts).2.2.2] at same
  exact absurd ((told .day days_compile).trans (told .week weeks_compile).symm) (by decide)

/-- Ninety days, under the plan. -/
theorem plan_not_widened_days : ∃ ir, compileCount .day = .ok ir ∧
    ((∀ ref ∈ ir.reads, ∃ read ∈ ir.reads,
        (∃ key, nodeKey letters.lower read = .ok key ∧ nodeKey letters.lower ref = .ok key) ∧
        ∃ parts, parseRef read = .ok parts ∧
          ((∃ named ∈ txnPlan.readSet,
              envelopeRef letters.lower "bank" named = foldedParts letters.lower parts) ∨
            ∃ added ∈ additionalRefs ir,
              envelopeRef letters.lower "bank" added = foldedParts letters.lower parts)) ∧
      (envelopeRef letters.lower "bank" ir.spine.declaration.sourceTableRef).table =
        fold letters.lower "customers" ∧
      ∀ e ∈ ir.expressions, e.pit.windowLength = 90) := by
  obtain ⟨ir, hir, facts⟩ := count_compiles days_compile
  have population : fold letters.lower txnPlan.populationRef ≠ "" := plan_evaluated.2.2.2.2
  exact ⟨_, hir, (@plan_not_widened letters.lower Empty (countFeature ir) txnPlan 90 (by decide)
    population rfl).1 (count_valid facts)⟩

end FeatureGen.Materialize
