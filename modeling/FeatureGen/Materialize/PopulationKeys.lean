import FeatureGen.Materialize.SpineNode

/-! # One row per key

A validated declaration has its keys in the governed grain, and every other grain
column collapsed by its policy. What the policy's selection keeps of a source that
is unique on its grain is unique on the keys, so neither gate of the node fires.

The example is a history of customers, one row for each customer and effective time: the
version that takes effect and arrives at the cutoff is the last one in.
-/

namespace FeatureGen.Materialize

open FeatureGen.Overlay Checks

theorem sortedSet_eq_nil {xs : List String} : sortedSet xs = [] ↔ xs = [] := by
  unfold sortedSet
  constructor
  · intro h
    have perm := KeySort.perm_sortBy id xs.dedup
    rw [h] at perm
    exact List.dedup_eq_nil xs |>.mp perm.nil_eq.symm
  · intro h
    simp [h, KeySort.sortBy]

variable {lower : String → String} {isoDate : String → Bool} {catalog : Catalog}
  {roles : List String}

namespace SpineSourceDeclaration

variable {d : SpineSourceDeclaration} {located : Located} {spec : SpineSpec}

def governedGrain (lower : String → String) (catalog : Catalog) (d : SpineSourceDeclaration) :
    List String :=
  match canonicalTableRef lower d.sourceTableRef with
  | none => []
  | some (source, schema, table) => governedGrainColumns lower catalog source schema table

/-- What a located declaration has taken from it. -/
structure Locates (lower : String → String) (isoDate : String → Bool)
    (d : SpineSourceDeclaration) (located : Located) : Prop where
  table : canonicalTableRef lower d.sourceTableRef =
    some (located.catalogSource, located.schema, located.table)
  keys : located.keyColumns = d.orderedKeyRefs.map refColumn
  collapsed : located.collapsedColumns = d.snapshotPolicy.collapsedRefs.map refColumn
  coherent : d.rejectIncoherentPolicy isoDate = .ok ()

theorem locates (h : d.locate lower isoDate = .ok located) : Locates lower isoDate d located := by
  unfold locate at h
  obtain ⟨_, h⟩ := check_bind_eq_ok.mp h
  obtain ⟨_, h⟩ := check_bind_eq_ok.mp h
  obtain ⟨_, h⟩ := check_bind_eq_ok.mp h
  cases htable : canonicalTableRef lower d.sourceTableRef with
  | none => simp [htable] at h
  | some parts =>
      obtain ⟨source, schema, table⟩ := parts
      simp only [htable] at h
      obtain ⟨_, h⟩ := check_bind_eq_ok.mp h
      obtain ⟨_, h⟩ := check_bind_eq_ok.mp h
      obtain ⟨_, h⟩ := check_bind_eq_ok.mp h
      obtain ⟨_, h⟩ := check_bind_eq_ok.mp h
      obtain ⟨coherent, h⟩ := check_bind_eq_ok.mp h
      cases h
      exact ⟨htable, rfl, rfl, coherent⟩

theorem refuseNonUniqueKeys_ok {grain : List String}
    (h : d.refuseNonUniqueKeys located grain = .ok ()) {c : String} (hc : c ∈ grain) :
    c ∈ located.keyColumns ∨ c ∈ located.collapsedColumns := by
  obtain ⟨_, h⟩ := check_bind_eq_ok.mp h
  rw [ensure_eq_ok, sortedSet_eq_nil, List.filter_eq_nil_iff] at h
  have left := h c hc
  simp only [List.contains_eq_mem] at left
  by_contra hnone
  exact left (by simpa [not_or] using hnone)

/-- What validation has established of an accepted declaration. -/
structure Accepted (lower : String → String) (isoDate : String → Bool) (catalog : Catalog)
    (d : SpineSourceDeclaration) (located : Located) : Prop
    extends Locates lower isoDate d located where
  covered : ∀ c ∈ d.governedGrain lower catalog,
    c ∈ d.orderedKeyRefs.map refColumn ∨ c ∈ d.snapshotPolicy.collapsedRefs.map refColumn

theorem accepted (h : validateSpineDeclaration lower isoDate catalog (some d) roles = .ok spec) :
    spec.declaration = d ∧ ∃ located, d.Accepted lower isoDate catalog located := by
  obtain ⟨located, hlocated, h⟩ := bind_eq_ok.mp h
  obtain ⟨nodes, _, h⟩ := bind_eq_ok.mp h
  obtain ⟨_, h⟩ := check_bind_eq_ok.mp h
  obtain ⟨unique, h⟩ := check_bind_eq_ok.mp h
  obtain ⟨_, h⟩ := check_bind_eq_ok.mp h
  cases h
  have hl := locates hlocated
  refine ⟨rfl, located, hl, fun c hc => ?_⟩
  simp only [governedGrain, hl.table] at hc
  rw [← hl.keys, ← hl.collapsed]
  exact refuseNonUniqueKeys_ok unique hc

end SpineSourceDeclaration

theorem columnOf_ok {ref what c : String} (h : columnOf ref what = .ok c) : refColumn ref = c := by
  unfold columnOf at h
  cases hparts : parseRef ref with
  | error e => simp [hparts] at h
  | ok parts =>
      cases hcolumn : parts.column with
      | none => simp [hparts, hcolumn] at h
      | some column =>
          simp only [hparts, hcolumn, Except.ok.injEq] at h
          simp [refColumn, hparts, Except.toOption, hcolumn, h]

theorem columnsOf_ok {refs cs : List String} {what : String}
    (h : (refs.mapM fun ref => columnOf ref what) = .ok cs) : refs.map refColumn = cs := by
  have each := mapM_eq_ok.mp h
  clear h
  induction each with
  | nil => rfl
  | cons hc _ ih => rw [List.map_cons, columnOf_ok hc, ih]

theorem keyColumns_ok {spec : SpineSpec} {plan : BuiltPlan} {contract : LandingContract}
    {keys : List (String × String)} (h : keyColumns spec plan contract = .ok keys) :
    keys.map (·.1) = spec.declaration.orderedKeyRefs.map refColumn := by
  obtain ⟨_, h⟩ := check_bind_eq_ok.mp h
  obtain ⟨arity, h⟩ := check_bind_eq_ok.mp h
  obtain ⟨_, h⟩ := check_bind_eq_ok.mp h
  obtain ⟨sources, hsources, h⟩ := bind_eq_ok.mp h
  cases h
  rw [ensure_eq_ok] at arity
  rw [columnsOf_ok hsources]
  have length : sources.length = plan.entityKeyColumns.length := by
    rw [← columnsOf_ok hsources, List.length_map, arity]
  exact List.map_fst_zip length.le

structure Renders (lower : String → String) (spec : SpineSpec) (mapping : Option PartitionMapping)
    (node : SpineNode) : Prop where
  keys : node.keys.map (·.1) = spec.declaration.orderedKeyRefs.map refColumn
  body : policyBody lower spec.declaration.snapshotPolicy node.keys mapping = .ok node.body
  availability : node.availability =
    if filtersAvailability node.body.selection (spec.declaration.availabilityRef.map refColumn)
    then none else spec.declaration.availabilityRef.map refColumn

theorem renders {spec : SpineSpec} {plan : BuiltPlan} {contract : LandingContract}
    {mapping : Option PartitionMapping} {source out : String} {node : SpineNode}
    (h : renderSpineNode lower spec plan contract mapping source out = .ok node) :
    Renders lower spec mapping node := by
  obtain ⟨_, h⟩ := check_bind_eq_ok.mp h
  obtain ⟨_, h⟩ := check_bind_eq_ok.mp h
  obtain ⟨keys, hkeys, h⟩ := bind_eq_ok.mp h
  obtain ⟨_, h⟩ := check_bind_eq_ok.mp h
  obtain ⟨availability, havailability, h⟩ := bind_eq_ok.mp h
  obtain ⟨body, hbody, h⟩ := bind_eq_ok.mp h
  obtain ⟨_, h⟩ := check_bind_eq_ok.mp h
  obtain ⟨_, h⟩ := check_bind_eq_ok.mp h
  cases h
  have same : spec.declaration.availabilityRef.map refColumn = availability := by
    cases href : spec.declaration.availabilityRef with
    | none =>
        rw [href] at havailability
        cases havailability
        rfl
    | some ref =>
        rw [href] at havailability
        obtain ⟨c, hc, heq⟩ := map_eq_ok.mp havailability
        rw [Option.map_some, columnOf_ok hc, ← heq]
  exact ⟨keyColumns_ok hkeys, hbody, by rw [same]⟩

/-- The source has the columns, and they identify its rows. -/
structure Dataset.UniqueOn (source : Dataset lower) (grain : List String) : Prop where
  has : ∀ c ∈ grain, source.has c = true
  identify : Frames.Identify grain source.rows

theorem partitionBody_ok {refs : List String} {mapping : Option PartitionMapping}
    {body : SpineBody} (h : partitionBody lower refs mapping = .ok body) :
    ∃ values, body.selection = .partitions values ∧
      (refs.map refColumn).map (norm lower) = (values.map (·.1)).map (norm lower) := by
  obtain ⟨declared, hdeclared, h⟩ := bind_eq_ok.mp h
  obtain ⟨values, _, h⟩ := bind_eq_ok.mp h
  obtain ⟨named, h⟩ := check_bind_eq_ok.mp h
  cases h
  rw [ensure_eq_ok] at named
  exact ⟨values, rfl, by rw [columnsOf_ok hdeclared, named]⟩

theorem latestBody_ok {effective available : String} {breaks : List String}
    {keys : List (String × String)} {body : SpineBody}
    (h : latestBody effective available breaks keys = .ok body) :
    body.selection = .latest (refColumn effective) (refColumn available) (keys.map (·.1))
      ((effective :: breaks).map refColumn) := by
  obtain ⟨e, he, h⟩ := bind_eq_ok.mp h
  obtain ⟨a, ha, h⟩ := bind_eq_ok.mp h
  obtain ⟨bs, hbs, h⟩ := bind_eq_ok.mp h
  obtain ⟨_, h⟩ := check_bind_eq_ok.mp h
  cases h
  rw [List.map_cons, columnOf_ok he, columnOf_ok ha, columnsOf_ok hbs]

theorem activeBody_ok {status : String} {allowed : List String} {body : SpineBody}
    (h : activeBody status allowed = .ok body) :
    body.selection = .active (refColumn status) allowed := by
  obtain ⟨_, h⟩ := check_bind_eq_ok.mp h
  obtain ⟨s, hs, h⟩ := bind_eq_ok.mp h
  cases h
  rw [columnOf_ok hs]

theorem currentBody_ok {observed : String} {body : SpineBody}
    (h : currentBody observed = .ok body) : body = ⟨some observed, .whole⟩ := by
  obtain ⟨_, h⟩ := check_bind_eq_ok.mp h
  cases h
  rfl

theorem partitions_agree {source : Dataset lower} {columns : List String}
    {values : List (String × PartitionLiteral)} {businessDate : String}
    {r s : Frames.Row String Cell}
    (named : columns.map (norm lower) = (values.map (·.1)).map (norm lower))
    (reads : ∀ c ∈ values.map (·.1), source.has c = true)
    (hr : r ∈ source.rows) (hs : s ∈ source.rows)
    (keptR : (values.all fun (c, literal) => Frames.among c [literal.value businessDate] r) = true)
    (keptS : (values.all fun (c, literal) => Frames.among c [literal.value businessDate] s) = true)
    {c : String} (hc : c ∈ columns) (has : source.has c = true) : r c = s c := by
  have folded : norm lower c ∈ (values.map (·.1)).map (norm lower) :=
    named ▸ List.mem_map_of_mem hc
  obtain ⟨m, hm, hnorm⟩ := List.mem_map.mp folded
  obtain ⟨⟨column, literal⟩, hvalue, rfl⟩ := List.mem_map.mp hm
  have same : ∀ t ∈ source.rows, t c = t column :=
    source.alike c column has (reads column hm) hnorm.symm
  have valueR := Frames.eq_of_among_single (List.all_eq_true.mp keptR _ hvalue)
  have valueS := Frames.eq_of_among_single (List.all_eq_true.mp keptS _ hvalue)
  rw [same r hr, same s hs, valueR, valueS]

theorem select_identifies {policy : SnapshotPolicy} {keys : List (String × String)}
    {mapping : Option PartitionMapping} {body : SpineBody} {source : Dataset lower}
    {grain : List String} (hbody : policyBody lower policy keys mapping = .ok body)
    (unique : source.UniqueOn grain)
    (covered : ∀ c ∈ grain, c ∈ keys.map (·.1) ∨ c ∈ policy.collapsedRefs.map refColumn)
    (reads : ∀ c ∈ body.selection.columns, source.has c = true)
    (businessDate : String) (cutoff : Option Cell) :
    ∃ kept, body.selection.select businessDate cutoff source.rows = .ok kept ∧
      Frames.Identify (keys.map (·.1)) kept := by
  cases policy with
  | currentSnapshot observed =>
      obtain rfl := currentBody_ok hbody
      exact ⟨_, rfl, unique.identify.of_covered covered (by simp [SnapshotPolicy.collapsedRefs])⟩
  | latestAvailableAsOf effective available breaks =>
      rw [latestBody_ok hbody]
      have winners := (unique.identify.filter fun r => Frames.upTo (refColumn effective) cutoff r &&
        Frames.upTo (refColumn available) cutoff r).first covered
      have single := Frames.repeated_eq_false.mpr winners
      exact ⟨_, if_neg (Bool.eq_false_iff.mp single), winners⟩
  | partitionMapped refs =>
      obtain ⟨values, hselection, named⟩ := partitionBody_ok hbody
      rw [hselection] at reads ⊢
      refine ⟨_, rfl, (unique.identify.filter _).of_covered covered
        fun r hr s hs heq c hc hcollapsed => ?_⟩
      obtain ⟨hr, keptR⟩ := List.mem_filter.mp hr
      obtain ⟨hs, keptS⟩ := List.mem_filter.mp hs
      exact partitions_agree named reads hr hs keptR keptS hcollapsed (unique.has c hc)
  | activePopulation status allowed observedOn =>
      rw [activeBody_ok hbody]
      exact ⟨_, rfl, (unique.identify.filter _).of_covered covered
        (by simp [SnapshotPolicy.collapsedRefs])⟩

theorem run_eq_ok {node : SpineNode} {source : Dataset lower} {businessDate : String}
    {cutoff : Option Cell} {rows : List (Frames.Row String Cell)}
    (vintage : node.body.guard.all (· = businessDate) = true)
    (reads : each (fun _ column => ensure (source.has column = true)
      (SpineStop.unresolved column)) node.columns = .ok ())
    (admits : node.admitted businessDate cutoff source.rows = .ok rows)
    (identify : Frames.Identify (node.keys.map (·.1)) rows) :
    node.run source businessDate cutoff =
      .ok (rows.map fun r => ⟨Frames.tuple (node.keys.map (·.1)) r, businessDate⟩) :=
  check_bind_eq_ok.mpr ⟨ensure_eq_ok.mpr vintage, check_bind_eq_ok.mpr ⟨reads, bind_eq_ok.mpr
    ⟨rows, admits, check_bind_eq_ok.mpr
      ⟨ensure_eq_ok.mpr (Frames.repeated_eq_false.mpr identify), rfl⟩⟩⟩⟩

theorem run_cases {node : SpineNode} {source : Dataset lower} {businessDate : String}
    {cutoff : Option Cell}
    (selects : (∀ c ∈ node.body.selection.columns, source.has c = true) →
      ∃ kept, node.body.selection.select businessDate cutoff source.rows = .ok kept ∧
        Frames.Identify (node.keys.map (·.1)) kept) :
    (∃ text, node.run source businessDate cutoff = .error (.refused .spineIncomplete text)) ∨
    (∃ c, node.run source businessDate cutoff = .error (.unresolved c)) ∨
    ∃ rows, node.run source businessDate cutoff = .ok rows ∧ (rows.map (·.keys)).Nodup := by
  by_cases vintage : node.body.guard.all (· = businessDate) = true
  swap
  · exact Or.inl ⟨_, by rw [SpineNode.run, ensure, if_neg vintage]; rfl⟩
  cases hreads : each (fun _ column => ensure (source.has column = true)
      (SpineStop.unresolved column)) node.columns with
  | error stop =>
      obtain ⟨_, c, _, hstop⟩ := exists_of_eachFrom_eq_error hreads
      refine Or.inr (Or.inl ⟨c, ?_⟩)
      rw [SpineNode.run, ensure, if_pos vintage, hreads]
      unfold ensure at hstop
      split at hstop
      · cases hstop
      · cases hstop
        rfl
  | ok _ =>
      have reads : ∀ c ∈ node.body.selection.columns, source.has c = true := by
        intro c hc
        obtain ⟨i, hi⟩ := List.mem_iff_getElem?.mp
          (List.mem_append_left _ (List.mem_append_left _ hc) : c ∈ node.columns)
        exact ensure_eq_ok.mp (each_eq_ok.mp hreads i c hi)
      obtain ⟨kept, hselect, identify⟩ := selects reads
      have landed := identify.filter fun r =>
        node.availability.all fun column => Frames.upTo column cutoff r
      have admits : node.admitted businessDate cutoff source.rows = .ok _ :=
        bind_eq_ok.mpr ⟨kept, hselect, rfl⟩
      refine Or.inr (Or.inr ⟨_, run_eq_ok vintage hreads admits landed, ?_⟩)
      rw [List.map_map]
      exact landed

/-- The population of an accepted declaration has one row per key, and neither the duplicate gate
    nor the tie gate fires, on every source that is unique on the governed grain. -/
theorem population_one_row_per_key {d : SpineSourceDeclaration} {spec : SpineSpec}
    {plan : BuiltPlan} {contract : LandingContract} {mapping : Option PartitionMapping}
    {sourceDataset spineDataset : String} {node : SpineNode}
    (valid : validateSpineDeclaration lower isoDate catalog (some d) roles = .ok spec)
    (rendered : renderSpineNode lower spec plan contract mapping sourceDataset spineDataset =
      .ok node)
    (source : Dataset lower) (unique : source.UniqueOn (d.governedGrain lower catalog))
    (businessDate : String) (cutoff : Option Cell) :
    (∀ rows, node.run source businessDate cutoff = .ok rows → (rows.map (·.keys)).Nodup) ∧
      ∀ gate text, node.run source businessDate cutoff = .error (.refused gate text) →
        gate = .spineIncomplete := by
  obtain ⟨rfl, located, accepted⟩ := SpineSourceDeclaration.accepted valid
  have hnode := renders rendered
  have ends := run_cases fun reads => select_identifies hnode.body unique
    (hnode.keys ▸ accepted.covered) reads businessDate cutoff
  rcases ends with ⟨text, hrun⟩ | ⟨c, hrun⟩ | ⟨rows, hrun, nodup⟩
  · rw [hrun]
    exact ⟨by simp, fun gate text h => by cases h; rfl⟩
  · rw [hrun]
    exact ⟨by simp, by simp⟩
  · rw [hrun]
    exact ⟨fun rows' h => by cases h; exact nodup, by simp⟩

def customerNode (column : Option String) (isGrain isAsOf : Bool) : CatalogNode where
  catalogSource := "crm"
  objectRef := String.intercalate "." (["public", "customers"] ++ column.toList)
  kind := if column.isSome then "column" else "table"
  tableName := "customers"
  columnName := column
  isGrain := isGrain
  isAsOf := isAsOf
  availabilityFactEventId := none
  visibleRequires := []

def customerCatalog : Catalog where
  nodes := [customerNode none false false, customerNode (some "cif_id") true false,
    customerNode (some "eff_ts") true true, customerNode (some "arrived_ts") false true]
  factState _ := none
  allowedClasses _ := []
  operationalValue _ _ := ⟨"resolved", some "true"⟩
  effectiveEntity _ ref :=
    if ref = "public.customers.cif_id" then ⟨some "customer", some "governed"⟩ else ⟨none, none⟩

def customerHistory : SpineSourceDeclaration where
  entity := "customer"
  sourceTableRef := "crm::public.customers"
  orderedKeyRefs := ["crm::public.customers.cif_id"]
  populationSemantics := .historicalAsOf
  availabilityRef := some "crm::public.customers.arrived_ts"
  snapshotPolicy := .latestAvailableAsOf "crm::public.customers.eff_ts"
    "crm::public.customers.arrived_ts" []
  declarationReason := "the customer master"
  declarationVersion := 1

def customerSpec : SpineSpec where
  declaration := customerHistory
  readSet := ["crm::public.customers.cif_id", "crm::public.customers.arrived_ts",
    "crm::public.customers.eff_ts"]
  governedGrainRefs := ["crm::public.customers.cif_id", "crm::public.customers.eff_ts"]
  rolesUsed := []

def customerPlan : BuiltPlan where
  logicalGroupName := "customer_daily"
  materializationContractHash := "c0"
  entityKeyColumns := ["cif_id"]
  businessDtColumn := "business_dt"
  features := []
  physicalTypePolicy := "p1"
  apart := by decide

def customerContract : LandingContract :=
  ⟨["crm::public.customers.cif_id"], "business_dt", "UTC", "00:00:00"⟩

def customerSpineNode : SpineNode where
  body := ⟨none, .latest "eff_ts" "arrived_ts" ["cif_id"] ["eff_ts"]⟩
  availability := none
  keys := [("cif_id", "cif_id")]
  businessDtColumn := "business_dt"
  cutoffTimezone := "UTC"
  cutoffTime := "00:00:00"
  inputs := ["customers", "params:business_dt"]
  outputs := ["spine"]

def customerRow (cif : String) (effective arrived : ℚ) : Frames.Row String Cell
  | "cif_id" => some (.text cif)
  | "eff_ts" => some (.instant effective)
  | "arrived_ts" => some (.instant arrived)
  | _ => none

theorem customers_alike {a b : String} (ha : ["cif_id", "eff_ts", "arrived_ts"].contains a = true)
    (hb : ["cif_id", "eff_ts", "arrived_ts"].contains b = true)
    (h : norm id a = norm id b) : a = b := by
  simp only [List.contains_eq_mem, List.mem_cons, List.not_mem_nil, or_false,
    decide_eq_true_eq] at ha hb
  rcases ha with rfl | rfl | rfl <;> rcases hb with rfl | rfl | rfl <;>
    first | rfl | exact absurd h (by decide +kernel)

def customers : Dataset id where
  has := ["cif_id", "eff_ts", "arrived_ts"].contains
  rows := [customerRow "c1" 10 12, customerRow "c1" 20 20, customerRow "c1" 21 21,
    customerRow "c2" 15 30]
  alike a b ha hb h r _ := by rw [customers_alike ha hb h]

theorem population_one_row_per_key_customers :
    customerSpineNode.run customers "2026-07-06" (some (.instant 20)) =
        .ok [⟨[some (.text "c1")], "2026-07-06"⟩] ∧
      (∀ rows, customerSpineNode.run customers "2026-07-06" (some (.instant 20)) = .ok rows →
        (rows.map (·.keys)).Nodup) ∧
      ∀ gate text, customerSpineNode.run customers "2026-07-06" (some (.instant 20)) =
        .error (.refused gate text) → gate = .spineIncomplete :=
  ⟨rfl,
    @population_one_row_per_key id (fun _ => false) customerCatalog [] customerHistory customerSpec
      customerPlan customerContract none "customers" "spine" customerSpineNode
      rfl rfl customers
      ⟨by decide +kernel, by unfold Frames.Identify; decide +kernel⟩ "2026-07-06"
      (some (.instant 20))⟩

end FeatureGen.Materialize
