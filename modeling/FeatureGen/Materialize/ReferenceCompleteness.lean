import FeatureGen.Formula.FilterEquality
import FeatureGen.Materialize.ExpressionIR

/-! # References that are read

What a compiled expression's read set has, ref by ref and role by role. A text of
the expression is accounted for in its place if it was read in the place's role or
the grammar makes the place a value's or a parameter's; and a slot is carried if
the identity payload tells its values apart.

In the examples `txn` has one governed availability column, and the share of the top
merchant has a second operand that repeats the column its filter reads.
-/

namespace FeatureGen.Materialize

open FeatureGen.Overlay FeatureGen.Formula Checks

def ReadSet.Reads (s : ReadSet) (ref : String) (role : RefRole) : Prop :=
  ∃ entry ∈ s, entry.logicalRef = ref ∧ role ∈ entry.roles

theorem mem_roles_read {entry : PhysicalRef} {role ρ : RefRole} {identity : PhysicalIdentity}
    {column : Option String} :
    ρ ∈ (entry.read role identity column).roles ↔ ρ ∈ entry.roles ∨ ρ = role := by
  unfold PhysicalRef.read
  by_cases held : entry.roles.contains role = true
  · have mem : role ∈ entry.roles := by simpa using held
    simp only [held, if_true]
    constructor
    · exact Or.inl
    · rintro (h | rfl)
      · exact h
      · exact mem
  · rw [if_neg held]
    simp

theorem reads_add {s : ReadSet} {ref r : String} {role ρ : RefRole} {identity : PhysicalIdentity}
    {column : Option String} :
    (s.add ref role identity column).Reads r ρ ↔ s.Reads r ρ ∨ (r = ref ∧ ρ = role) := by
  unfold ReadSet.add
  by_cases present : s.any (·.logicalRef = ref) = true
  · rw [if_pos present]
    obtain ⟨held, hheld, rfl⟩ := by simpa using present
    constructor
    · rintro ⟨entry, hentry, rfl, hrole⟩
      obtain ⟨old, hold, rfl⟩ := List.mem_map.mp hentry
      by_cases same : old.logicalRef = held.logicalRef
      · rw [if_pos same] at hrole ⊢
        rcases mem_roles_read.mp hrole with hrole | rfl
        · exact Or.inl ⟨old, hold, rfl, hrole⟩
        · exact Or.inr ⟨same, rfl⟩
      · rw [if_neg same] at hrole ⊢
        exact Or.inl ⟨old, hold, rfl, hrole⟩
    · rintro (⟨entry, hentry, rfl, hrole⟩ | ⟨rfl, rfl⟩)
      · refine ⟨_, List.mem_map_of_mem hentry, ?_, ?_⟩
        · split <;> rfl
        · split
          · exact mem_roles_read.mpr (Or.inl hrole)
          · exact hrole
      · refine ⟨_, List.mem_map_of_mem hheld, ?_, ?_⟩
        · rw [if_pos rfl]
          rfl
        · rw [if_pos rfl]
          exact mem_roles_read.mpr (Or.inr rfl)
  · rw [if_neg present]
    constructor
    · rintro ⟨entry, hentry, rfl, hrole⟩
      rcases List.mem_append.mp hentry with hentry | hentry
      · exact Or.inl ⟨entry, hentry, rfl, hrole⟩
      · obtain rfl := List.mem_singleton.mp hentry
        exact Or.inr ⟨rfl, by simpa using hrole⟩
    · rintro (⟨entry, hentry, rfl, hrole⟩ | ⟨rfl, rfl⟩)
      · exact ⟨entry, List.mem_append_left _ hentry, rfl, hrole⟩
      · exact ⟨_, List.mem_append_right _ (List.mem_singleton.mpr rfl), rfl, by simp⟩

section

variable {py : Primitives} {R : Type} {ctx : CompileContext R} {path : String}
  {expr : AggregateExpressionV3} {grain roles : List String} {r : String} {ρ : RefRole}

theorem reads_ownReadSet {identity : PhysicalIdentity} :
    (ownReadSet path expr identity).Reads r ρ ↔
      (r = expr.sourceRelation.tableRef ∧ ρ = .sourceTable) ∨
        ∃ location, (location, ρ, r) ∈ ownReads path expr := by
  have fold (own : List (String × RefRole × String)) (s : ReadSet) :
      (own.foldl (fun s read => s.add read.2.2 read.2.1 identity (columnName read.2.2)) s).Reads
        r ρ ↔
        s.Reads r ρ ∨ ∃ location, (location, ρ, r) ∈ own := by
    induction own generalizing s with
    | nil => simp
    | cons first own ih =>
        obtain ⟨location, role, ref⟩ := first
        rw [List.foldl_cons, ih, reads_add]
        simp only [List.mem_cons, Prod.mk.injEq, or_assoc]
        refine or_congr_right ?_
        constructor
        · rintro (⟨rfl, rfl⟩ | ⟨l, hl⟩)
          · exact ⟨location, Or.inl ⟨rfl, rfl, rfl⟩⟩
          · exact ⟨l, Or.inr hl⟩
        · rintro ⟨l, ⟨rfl, rfl, rfl⟩ | hl⟩
          · exact Or.inl ⟨rfl, rfl⟩
          · exact Or.inr ⟨l, hl⟩
  rw [ownReadSet, fold, reads_add]
  simp [ReadSet.Reads]

theorem reads_foldlM {reads : List (String × RefRole)} {state state' : ReadSet × List String}
    (h : reads.foldlM (readOne py ctx) state = .ok state') :
    state'.1.Reads r ρ ↔ state.1.Reads r ρ ∨ (r, ρ) ∈ reads := by
  induction reads generalizing state with
  | nil =>
      cases h
      simp
  | cons read reads ih =>
      obtain ⟨ref, role⟩ := read
      rw [List.foldlM_cons] at h
      obtain ⟨next, hnext, h⟩ := bind_eq_ok.mp h
      obtain ⟨table, _, hnext⟩ := bind_eq_ok.mp hnext
      obtain ⟨requirement, _, hnext⟩ := bind_eq_ok.mp hnext
      cases hnext
      rw [ih h, reads_add]
      simp only [List.mem_cons, Prod.mk.injEq, or_assoc]

/-- What a compiled expression is made of. -/
structure Compiled (py : Primitives) (ctx : CompileContext R) (path : String)
    (expr : AggregateExpressionV3) (grain roles : List String) (ir : ExpressionExecutionIR)
    (requirement : InputRequirement) (parts : LogicalParts) (availability : Availability)
    (joined : List String) : Prop where
  requirement_eq : ctx.deriveRequirement expr.sourceRelation.tableRef = .ok requirement
  parts_eq : parseRef expr.sourceRelation.tableRef = .ok parts
  availability_eq : governedAvailability py.lower ctx.numberText ctx.schemaMessage ctx.catalog
    parts.source parts.schema parts.table expr.sourceRelation.tableRef = .ok availability
  ref_eq : ir.pit.availabilityRef = normalizeRef py.lower parts.source (some parts.schema)
    parts.table (some availability.column)
  plan_eq : planToGrain py ctx ((ownReadSet path expr requirement.identity).add
      ir.pit.availabilityRef .availability requirement.identity (some availability.column))
    requirement.identity expr.sourceRelation.tableRef parts.source grain roles =
      .ok (ir.steps, ir.physicalReadSet, joined)
  accounted : unaccounted path expr grain ir.physicalReadSet = []
  tree_eq : filterTreeOf py path expr = .ok ir.filterTree
  pit_eq : ir.pit = pitOf expr.window ir.pit.availabilityRef availability
  exprPath : ir.exprPath = path
  aggregation : ir.aggregation = expr.aggregation
  inputs : ir.inputRequirements =
    (expr.sourceRelation.tableRef :: joined).reverse.dedup.reverse.filterMap fun table =>
      (ctx.deriveRequirement table).toOption

theorem raising_eq_ok {α : Type} {x : Except String α} {a : α} :
    raising (R := R) x = .ok a ↔ x = .ok a := by
  cases x <;> simp [raising, Except.mapError]

theorem compiled_of_normalized {ir : ExpressionExecutionIR}
    (h : compileNormalized py ctx path expr grain roles = .ok ir) :
    ∃ requirement parts availability joined,
      Compiled py ctx path expr grain roles ir requirement parts availability joined := by
  obtain ⟨requirement, hrequirement, h⟩ := bind_eq_ok.mp h
  obtain ⟨off, _, h⟩ := bind_eq_ok.mp h
  obtain ⟨_, h⟩ := check_bind_eq_ok.mp h
  obtain ⟨parts, hparts, h⟩ := bind_eq_ok.mp h
  obtain ⟨availability, havailability, h⟩ := bind_eq_ok.mp h
  obtain ⟨⟨steps, reads, joined⟩, hplan, h⟩ := bind_eq_ok.mp h
  obtain ⟨hleft, h⟩ := check_bind_eq_ok.mp h
  obtain ⟨tree, htree, h⟩ := bind_eq_ok.mp h
  cases h
  rw [raising_eq_ok] at hparts htree
  have governed : governedAvailability py.lower ctx.numberText ctx.schemaMessage ctx.catalog
      parts.source parts.schema parts.table expr.sourceRelation.tableRef = .ok availability := by
    cases hg : governedAvailability py.lower ctx.numberText ctx.schemaMessage ctx.catalog
      parts.source parts.schema parts.table expr.sourceRelation.tableRef with
    | error e => simp [hg, Except.mapError] at havailability
    | ok a => simpa [hg, Except.mapError] using havailability
  exact ⟨requirement, parts, availability, joined, hrequirement, hparts, governed, rfl, hplan,
    ensure_eq_ok.mp hleft, htree, rfl, rfl, rfl, rfl⟩

theorem Compiled.reads {ir : ExpressionExecutionIR} {requirement : InputRequirement}
    {parts : LogicalParts} {availability : Availability} {joined : List String}
    (h : Compiled py ctx path expr grain roles ir requirement parts availability joined) :
    ir.physicalReadSet.Reads r ρ ↔
      (r = expr.sourceRelation.tableRef ∧ ρ = .sourceTable) ∨
      (∃ location, (location, ρ, r) ∈ ownReads path expr) ∨
      (r = ir.pit.availabilityRef ∧ ρ = .availability) ∨ (r, ρ) ∈ impliedReads ir.steps grain := by
  obtain ⟨tables, _, hplan⟩ := bind_eq_ok.mp h.plan_eq
  obtain ⟨off, _, hplan⟩ := bind_eq_ok.mp hplan
  obtain ⟨_, hplan⟩ := check_bind_eq_ok.mp hplan
  obtain ⟨target, _, hplan⟩ := bind_eq_ok.mp hplan
  obtain ⟨steps, _, hplan⟩ := bind_eq_ok.mp hplan
  obtain ⟨⟨reads, order⟩, hfold, hplan⟩ := bind_eq_ok.mp hplan
  simp only [Except.ok.injEq, Prod.mk.injEq] at hplan
  obtain ⟨rfl, rfl, rfl⟩ := hplan
  rw [reads_foldlM hfold, reads_add, reads_ownReadSet]
  simp only [or_assoc]

theorem role_of_mem_impliedReads {steps : List PlannedStep} (h : (r, ρ) ∈ impliedReads steps grain) :
    ρ = .joinKey ∨ ρ = .filterLeft ∨ ρ = .grainKey := by
  simp only [impliedReads, List.mem_append, List.mem_flatMap, List.mem_map, Prod.mk.injEq] at h
  rcases h with ⟨_, _, ⟨_, _, _, rfl⟩ | ⟨_, _, _, rfl⟩⟩ | ⟨_, _, _, rfl⟩ <;> simp

/-- The role a place of the grammar is read in. -/
def Slot.role : Slot → Option RefRole
  | operand => some .operand
  | tableRef => some .sourceTable
  | filterLeft => some .filterLeft
  | eventTime => some .eventTime
  | _ => none

/-- Every ref of the expression was read in the role of its place, or stands where the grammar has
    a value or a parameter. -/
def AccountsFor (py : Primitives) (path : String) (expr : AggregateExpressionV3)
    (ir : ExpressionExecutionIR) : Prop :=
  ∀ t ∈ logicalRefsIn path (normalizedExpression py expr), t.slot.nonPhysical.isSome = true ∨
    ∃ role, t.slot.role = some role ∧ ir.physicalReadSet.Reads t.text role

/-- The texts of an expression that no role reads and that stand for no value. -/
def strayTexts (expr : AggregateExpressionV3) : List String :=
  expr.window.timezone :: (expr.secondOperand.toList ++
    expr.authorityRefs.toList.flatMap (fun refs => [refs.statusPolicyRef, refs.directionPolicyRef,
      refs.reversalPolicyRef, refs.currencyConversionRef]) ++
    expr.rowSelections.flatMap fun selection => [selection.role, selection.semanticValue])

/-- The place is neither read nor a value's. -/
def Slot.stray (slot : Slot) : Bool := slot.role.isNone && slot.nonPhysical.isNone

theorem slot_of_mem_predicateTexts {node : FilterPredicate} {path : String} {t : PlacedText}
    (h : t ∈ predicateTexts path node) :
    t.slot = .filterLeft ∨ t.slot.nonPhysical.isSome = true := by
  simp only [predicateTexts, literalTexts, List.mem_cons, List.mem_append, List.mem_flatMap,
    List.mem_map, List.mem_flatten, List.mem_mapIdx, List.not_mem_nil, or_false] at h
  rcases h with rfl | (⟨_, _, rfl⟩ | ⟨_, _, rfl⟩) | ⟨_, ⟨_, _, rfl⟩, ht⟩
  · exact Or.inl rfl
  · exact Or.inr rfl
  · exact Or.inr rfl
  · obtain rfl := List.mem_singleton.mp ht
    exact Or.inr rfl

theorem childTexts_eq {path : String} {children : List FilterNode} {i : ℕ} {t : PlacedText}
    (h : t ∈ childTexts path i children) : ∃ child ∈ children, ∃ p, t ∈ filterTexts p child := by
  induction children generalizing i with
  | nil => simp [childTexts] at h
  | cons child children ih =>
      rw [childTexts, List.mem_append] at h
      rcases h with h | h
      · exact ⟨child, List.mem_cons_self, _, h⟩
      · obtain ⟨c, hc, p, hp⟩ := ih h
        exact ⟨c, List.mem_cons_of_mem _ hc, p, hp⟩

theorem slot_of_mem_filterTexts {node : FilterNode} {path : String} {t : PlacedText}
    (h : t ∈ filterTexts path node) : t.slot = .filterLeft ∨ t.slot.nonPhysical.isSome = true := by
  induction node generalizing path with
  | predicate node => exact slot_of_mem_predicateTexts h
  | bool op children ih =>
      rw [filterTexts] at h
      obtain ⟨child, hchild, p, hp⟩ := childTexts_eq h
      exact ih child hchild hp

theorem mem_expressionTexts {t : PlacedText} (h : t ∈ expressionTexts path expr) :
    (t.slot = .operand ∧ expr.operand = some t.text ∧ t.location = path ++ ".operand") ∨
    (t.slot = .tableRef ∧ t.text = expr.sourceRelation.tableRef) ∨
    (t ∈ expr.filter.toList.flatMap (filterTexts (path ++ ".filter")) ∧
      (t.slot = .filterLeft ∨ t.slot.nonPhysical.isSome = true)) ∨
    (t.slot = .eventTime ∧ t.text = expr.window.eventTimeRef) ∨
    (t.slot.stray = true ∧ t.text ∈ strayTexts expr) := by
  simp only [expressionTexts, List.mem_append, List.mem_cons, List.mem_map, Option.mem_toList,
    List.not_mem_nil, or_false] at h
  rcases h with ⟨ref, hoperand, rfl⟩ | rfl | ((((h | rfl | rfl) | ⟨ref, hsecond, rfl⟩) | h) | h)
  · exact Or.inl ⟨rfl, hoperand, rfl⟩
  · exact Or.inr (Or.inl ⟨rfl, rfl⟩)
  · obtain ⟨node, hnode, hmem⟩ := List.mem_flatMap.mp h
    exact Or.inr (Or.inr (Or.inl ⟨h, slot_of_mem_filterTexts hmem⟩))
  · exact Or.inr (Or.inr (Or.inr (Or.inl ⟨rfl, rfl⟩)))
  · exact Or.inr (Or.inr (Or.inr (Or.inr ⟨rfl, List.mem_cons_self⟩)))
  · exact Or.inr (Or.inr (Or.inr (Or.inr ⟨rfl, by simp [strayTexts, hsecond]⟩)))
  · obtain ⟨refs, hrefs, hmem⟩ := List.mem_flatMap.mp h
    rw [Option.mem_toList] at hrefs
    refine Or.inr (Or.inr (Or.inr (Or.inr ?_)))
    simp only [authorityTexts, List.mem_cons, List.not_mem_nil, or_false] at hmem
    rcases hmem with rfl | rfl | rfl | rfl <;> exact ⟨rfl, by simp [strayTexts, hrefs]⟩
  · obtain ⟨texts, htexts, hmem⟩ := List.mem_flatten.mp h
    obtain ⟨i, hi, rfl⟩ := List.mem_mapIdx.mp htexts
    refine Or.inr (Or.inr (Or.inr (Or.inr ?_)))
    have held (text : String) (htext : text ∈ [expr.rowSelections[i].role,
        expr.rowSelections[i].semanticValue]) : text ∈ strayTexts expr :=
      List.mem_cons_of_mem _ (List.mem_append_right _
        (List.mem_flatMap.mpr ⟨_, List.getElem_mem hi, htext⟩))
    simp only [selectionTexts, List.mem_cons, List.not_mem_nil, or_false] at hmem
    rcases hmem with rfl | rfl <;> exact ⟨rfl, held _ (by simp)⟩

theorem exists_authorityText {refs : AuthorityRefsV2} {s : String} (path : String)
    (h : s ∈ [refs.statusPolicyRef, refs.directionPolicyRef, refs.reversalPolicyRef,
      refs.currencyConversionRef]) :
    ∃ t ∈ authorityTexts path refs, t.slot.stray = true ∧ t.text = s := by
  have texts : s ∈ (authorityTexts path refs).map (·.text) := h
  obtain ⟨t, ht, rfl⟩ := List.mem_map.mp texts
  have slots : ∀ slot ∈ (authorityTexts path refs).map (·.slot), slot.stray = true := by
    simp [authorityTexts, Slot.stray, Slot.role, Slot.nonPhysical]
  exact ⟨t, ht, slots _ (List.mem_map_of_mem ht), rfl⟩

theorem exists_selectionText {selection : SemanticRowSelectionV1} {s : String} (path : String)
    (h : s ∈ [selection.role, selection.semanticValue]) :
    ∃ t ∈ selectionTexts path selection, t.slot.stray = true ∧ t.text = s := by
  have texts : s ∈ (selectionTexts path selection).map (·.text) := h
  obtain ⟨t, ht, rfl⟩ := List.mem_map.mp texts
  have slots : ∀ slot ∈ (selectionTexts path selection).map (·.slot), slot.stray = true := by
    simp [selectionTexts, Slot.stray, Slot.role, Slot.nonPhysical]
  exact ⟨t, ht, slots _ (List.mem_map_of_mem ht), rfl⟩

theorem exists_stray {s : String} (path : String) (h : s ∈ strayTexts expr) :
    ∃ t ∈ expressionTexts path expr, t.slot.stray = true ∧ t.text = s := by
  simp only [strayTexts, List.mem_cons, List.mem_append, Option.mem_toList, List.mem_flatMap] at h
  rcases h with rfl | (hsecond | ⟨refs, hrefs, htext⟩) | ⟨selection, hselection, htext⟩
  · exact ⟨⟨path ++ ".window.timezone", .timezone, _⟩, by simp [expressionTexts], rfl, rfl⟩
  · exact ⟨⟨path ++ ".second_operand", .secondOperand, s⟩, by simp [expressionTexts, hsecond],
      rfl, rfl⟩
  · obtain ⟨t, ht, stray, rfl⟩ := exists_authorityText (path ++ ".authority_refs")
      (by simpa using htext)
    refine ⟨t, ?_, stray, rfl⟩
    simp only [expressionTexts, List.mem_append, List.mem_cons, List.mem_flatMap, Option.mem_toList]
    exact Or.inr (Or.inr (Or.inl (Or.inr ⟨refs, hrefs, ht⟩)))
  · obtain ⟨i, hi, rfl⟩ := List.mem_iff_getElem.mp hselection
    obtain ⟨t, ht, stray, rfl⟩ := exists_selectionText s!"{path}.row_selections[{i}]"
      (by simpa using htext)
    refine ⟨t, ?_, stray, rfl⟩
    simp only [expressionTexts, List.mem_append, List.mem_cons]
    exact Or.inr (Or.inr (Or.inr
      (List.mem_flatten.mpr ⟨_, List.mem_mapIdx.mpr ⟨i, hi, rfl⟩, ht⟩)))

theorem accountsFor_iff {ir : ExpressionExecutionIR} {requirement : InputRequirement}
    {parts : LogicalParts} {availability : Availability} {joined : List String}
    (h : Compiled py ctx path (normalizedExpression py expr) grain roles ir requirement parts
      availability joined) :
    AccountsFor py path expr ir ↔ ∀ s ∈ strayTexts expr, isRefShaped s = false := by
  constructor
  · intro accounts s hs
    by_contra shaped
    obtain ⟨t, ht, stray, rfl⟩ : ∃ t ∈ expressionTexts path (normalizedExpression py expr),
        t.slot.stray = true ∧ t.text = s := exists_stray path hs
    have mem : t ∈ logicalRefsIn path (normalizedExpression py expr) :=
      List.mem_filter.mpr ⟨ht, by simpa using shaped⟩
    simp only [Slot.stray, Bool.and_eq_true, Option.isNone_iff_eq_none] at stray
    rcases accounts t mem with physical | ⟨role, hrole, _⟩
    · simp [stray.2] at physical
    · simp [stray.1] at hrole
  · intro unreferenced t ht
    obtain ⟨ht, shaped⟩ := List.mem_filter.mp ht
    rcases mem_expressionTexts ht with ⟨hslot, hoperand, _⟩ | ⟨hslot, htext⟩ |
      ⟨hmem, hslot | physical⟩ | ⟨hslot, htext⟩ | ⟨_, hstray⟩
    · refine Or.inr ⟨.operand, by simp [hslot, Slot.role], h.reads.mpr (Or.inr (Or.inl ?_))⟩
      exact ⟨_, List.mem_append_left _ (List.mem_map.mpr ⟨_, by simpa using hoperand, rfl⟩)⟩
    · exact Or.inr ⟨.sourceTable, by simp [hslot, Slot.role], h.reads.mpr (Or.inl ⟨htext, rfl⟩)⟩
    · refine Or.inr ⟨.filterLeft, by simp [hslot, Slot.role], h.reads.mpr (Or.inr (Or.inl ?_))⟩
      refine ⟨t.location, List.mem_append_right _ (List.mem_cons_of_mem _ (List.mem_map.mpr ?_))⟩
      exact ⟨t, List.mem_filter.mpr ⟨hmem, by simp [hslot, shaped]⟩, rfl⟩
    · exact Or.inl physical
    · refine Or.inr ⟨.eventTime, by simp [hslot, Slot.role], h.reads.mpr (Or.inr (Or.inl ?_))⟩
      exact ⟨_, List.mem_append_right _ (by rw [htext]; exact List.mem_cons_self)⟩
    · rw [unreferenced _ hstray] at shaped
      cases shaped

/-- A window, refs in their canonical spelling: what its rows are, without the policies. -/
structure WindowSlots where
  eventTimeRef : String
  basis : WindowBasisV2
  length : ℤ
  unit : WindowUnit
  startInclusive : Inclusivity
  endInclusive : Inclusivity
  timezone : String

def windowSlots (py : Primitives) (window : WindowPolicyV2) : WindowSlots :=
  ⟨canonicalRef py window.eventTimeRef, window.basis, window.length, window.unit,
    window.startInclusive, window.endInclusive, window.timezone⟩

/-- The slots of an expression that change its value, refs in their canonical spelling and the
    filter as its canonical tree. -/
structure ValueSlots where
  operand : Option String
  secondOperand : Option String
  aggregationArgument : Option ℚ
  filterTree : Option (Option Plain)
  window : WindowSlots
  offsetPeriods : ℤ

def valueSlots (py : Primitives) (path : String) (expr : AggregateExpressionV3) : ValueSlots where
  operand := expr.operand.map (canonicalRef py)
  secondOperand := expr.secondOperand.map (canonicalRef py)
  aggregationArgument := expr.aggregationArgument
  filterTree := (filterTreeOf py path (normalizedExpression py expr)).toOption
  window := windowSlots py expr.window
  offsetPeriods := expr.window.offsetPeriods

/-- What a compiled expression carries of the expression's slots, its aggregate and its source. -/
structure CarriedSlots where
  aggregation : AggregateFunctionV2
  source : String
  operand : Option String
  filterTree : Option (Option Plain)
  window : WindowSlots

def carriedSlots (py : Primitives) (path : String) (expr : AggregateExpressionV3) :
    CarriedSlots where
  aggregation := expr.aggregation
  source := canonicalRef py expr.sourceRelation.tableRef
  operand := expr.operand.map (canonicalRef py)
  filterTree := (filterTreeOf py path (normalizedExpression py expr)).toOption
  window := windowSlots py expr.window

def SlotsTold (py : Primitives) (path : String) (e₁ e₂ : AggregateExpressionV3)
    (ir₁ ir₂ : ExpressionExecutionIR) : Prop :=
  valueSlots py path e₁ ≠ valueSlots py path e₂ → ir₁.identityPayload ≠ ir₂.identityPayload

def SlotsCarried (py : Primitives) (path : String) (e₁ e₂ : AggregateExpressionV3) : Prop :=
  valueSlots py path e₁ ≠ valueSlots py path e₂ → carriedSlots py path e₁ ≠ carriedSlots py path e₂

/-- The reads of the expressions' own relations, in their canonical spelling. -/
def ownRefs (py : Primitives) (path : String) (expr : AggregateExpressionV3) :
    List (RefRole × String) :=
  (ownReads path (normalizedExpression py expr)).map (·.2)

section Pair

variable {e₁ e₂ : AggregateExpressionV3} {ir₁ ir₂ : ExpressionExecutionIR}
  {q₁ q₂ : InputRequirement} {p₁ p₂ : LogicalParts} {a₁ a₂ : Availability} {j₁ j₂ : List String}

theorem window_eq_of_pit {w₁ w₂ : WindowPolicyV2} {ref₁ ref₂ : String}
    (h : pitOf { w₁ with eventTimeRef := canonicalRef py w₁.eventTimeRef } ref₁ a₁ =
      pitOf { w₂ with eventTimeRef := canonicalRef py w₂.eventTimeRef } ref₂ a₂) :
    windowSlots py w₁ = windowSlots py w₂ := by
  simp only [pitOf, PitSpec.mk.injEq] at h
  obtain ⟨event, _, _, _, basis, length, unit, start, stop, zone⟩ := h
  rw [windowSlots, windowSlots, event, length, zone, StrEnum.value_injective basis,
    StrEnum.value_injective unit, StrEnum.value_injective start, StrEnum.value_injective stop]

theorem Compiled.operand_iff
    (h : Compiled py ctx path (normalizedExpression py expr) grain roles ir₁ q₁ p₁ a₁ j₁) :
    ir₁.physicalReadSet.Reads r .operand ↔ expr.operand.map (canonicalRef py) = some r := by
  rw [h.reads]
  constructor
  · rintro (⟨_, h⟩ | ⟨location, hown⟩ | ⟨_, h⟩ | himplied)
    · cases h
    · simp only [ownReads, List.mem_append, List.mem_map, List.mem_cons, Prod.mk.injEq,
        Option.mem_toList, reduceCtorEq, false_and, and_false, exists_false, or_false] at hown
      obtain ⟨ref, href, _, _, rfl⟩ := hown
      exact href
    · cases h
    · rcases role_of_mem_impliedReads himplied with h | h | h <;> cases h
  · intro hoperand
    exact Or.inr (Or.inl ⟨_, List.mem_append_left _
      (List.mem_map.mpr ⟨r, Option.mem_toList.mpr hoperand, rfl⟩)⟩)

theorem Compiled.source_iff
    (h : Compiled py ctx path (normalizedExpression py expr) grain roles ir₁ q₁ p₁ a₁ j₁) :
    ir₁.physicalReadSet.Reads r .sourceTable ↔ r = canonicalRef py expr.sourceRelation.tableRef := by
  rw [h.reads]
  constructor
  · rintro (⟨rfl, _⟩ | ⟨location, hown⟩ | ⟨_, h⟩ | himplied)
    · rfl
    · simp [ownReads] at hown
    · cases h
    · rcases role_of_mem_impliedReads himplied with h | h | h <;> cases h
  · rintro rfl
    exact Or.inl ⟨rfl, rfl⟩

theorem carried_of_payload
    (h₁ : Compiled py ctx path (normalizedExpression py e₁) grain roles ir₁ q₁ p₁ a₁ j₁)
    (h₂ : Compiled py ctx path (normalizedExpression py e₂) grain roles ir₂ q₂ p₂ a₂ j₂)
    (h : ir₁.identityPayload = ir₂.identityPayload) :
    carriedSlots py path e₁ = carriedSlots py path e₂ := by
  simp only [ExpressionExecutionIR.identityPayload, ExpressionPayload.mk.injEq] at h
  obtain ⟨_, reads, _, pit, _, aggregation, tree⟩ := h
  have operand : e₁.operand.map (canonicalRef py) = e₂.operand.map (canonicalRef py) := by
    apply Option.ext
    intro r
    rw [← h₁.operand_iff, ← h₂.operand_iff, reads]
  have source : canonicalRef py e₁.sourceRelation.tableRef =
      canonicalRef py e₂.sourceRelation.tableRef := by
    rw [← h₂.source_iff, ← reads, h₁.source_iff]
  have window : windowSlots py e₁.window = windowSlots py e₂.window := by
    rw [h₁.pit_eq, h₂.pit_eq] at pit
    exact window_eq_of_pit pit
  rw [h₁.aggregation, h₂.aggregation] at aggregation
  simp only [carriedSlots, CarriedSlots.mk.injEq]
  refine ⟨aggregation, source, operand, ?_, window⟩
  rw [h₁.tree_eq, h₂.tree_eq, tree]

theorem ownReadSet_congr {e₁ e₂ : AggregateExpressionV3} {identity : PhysicalIdentity}
    (source : e₁.sourceRelation.tableRef = e₂.sourceRelation.tableRef)
    (own : (ownReads path e₁).map (·.2) = (ownReads path e₂).map (·.2)) :
    ownReadSet path e₁ identity = ownReadSet path e₂ identity := by
  have fold (reads : List (String × RefRole × String)) (s : ReadSet) :
      reads.foldl (fun s read => s.add read.2.2 read.2.1 identity (columnName read.2.2)) s =
        (reads.map (·.2)).foldl
          (fun s read => s.add read.2 read.1 identity (columnName read.2)) s := by
    induction reads generalizing s with
    | nil => rfl
    | cons read reads ih => exact ih _
  rw [ownReadSet, ownReadSet, fold, fold, own, source]

theorem payload_of_carried
    (h₁ : Compiled py ctx path (normalizedExpression py e₁) grain roles ir₁ q₁ p₁ a₁ j₁)
    (h₂ : Compiled py ctx path (normalizedExpression py e₂) grain roles ir₂ q₂ p₂ a₂ j₂)
    (own : ownRefs py path e₁ = ownRefs py path e₂)
    (h : carriedSlots py path e₁ = carriedSlots py path e₂) :
    ir₁.identityPayload = ir₂.identityPayload := by
  simp only [carriedSlots, CarriedSlots.mk.injEq] at h
  obtain ⟨aggregation, source, _, tree, window⟩ := h
  have table : (normalizedExpression py e₁).sourceRelation.tableRef =
      (normalizedExpression py e₂).sourceRelation.tableRef := source
  have reads : ownReadSet path (normalizedExpression py e₁) q₂.identity =
      ownReadSet path (normalizedExpression py e₂) q₂.identity := ownReadSet_congr table own
  have hq := h₁.requirement_eq
  have hp := h₁.parts_eq
  rw [table, h₂.requirement_eq] at hq
  rw [table, h₂.parts_eq] at hp
  cases hq
  cases hp
  have ha := h₁.availability_eq
  rw [table, h₂.availability_eq] at ha
  cases ha
  have ref : ir₁.pit.availabilityRef = ir₂.pit.availabilityRef := h₁.ref_eq.trans h₂.ref_eq.symm
  have plan := h₁.plan_eq
  rw [table, reads, ref, h₂.plan_eq] at plan
  simp only [Except.ok.injEq, Prod.mk.injEq] at plan
  obtain ⟨steps, readSet, joined⟩ := plan
  have pit : ir₁.pit = ir₂.pit := by
    rw [h₁.pit_eq, h₂.pit_eq, ref]
    simp only [windowSlots, WindowSlots.mk.injEq] at window
    simp only [pitOf, normalizedExpression, PitSpec.mk.injEq]
    obtain ⟨event, basis, length, unit, start, stop, zone⟩ := window
    simp [event, basis, length, unit, start, stop, zone]
  have inputs : ir₁.inputRequirements = ir₂.inputRequirements := by
    rw [h₁.inputs, h₂.inputs, table, joined]
  have trees : ir₁.filterTree = ir₂.filterTree := by
    rw [h₁.tree_eq, h₂.tree_eq] at tree
    exact Option.some.inj tree
  simp only [ExpressionExecutionIR.identityPayload, ExpressionPayload.mk.injEq]
  exact ⟨h₁.exprPath.trans h₂.exprPath.symm, readSet.symm, by rw [steps], pit, by rw [inputs],
    by rw [h₁.aggregation, h₂.aggregation]; exact aggregation, trees⟩

end Pair

theorem compiled_of_expression {grainKeys : List String} {ir : ExpressionExecutionIR}
    (h : compileExpression py ctx path expr grainKeys roles = .ok ir) :
    ∃ requirement parts availability joined,
      Compiled py ctx path (normalizedExpression py expr) (grainKeys.map (canonicalRef py)) roles ir
        requirement parts availability joined := by
  obtain ⟨_, h⟩ := check_bind_eq_ok.mp h
  obtain ⟨_, h⟩ := check_bind_eq_ok.mp h
  exact compiled_of_normalized h

theorem noOffset_mem : (0 : ℤ) ≤ 0 ∧ (0 : ℤ) ≤ maxWindowOffsetPeriods := by decide

/-- Two compiled expressions: the refs of each are accounted for if and only if none stands in a
    place without a role, and they are told apart by their payloads where their difference is
    carried; where both read the same refs in one order, only there. -/
theorem references_accounted_iff {e₁ e₂ : AggregateExpressionV3} {grainKeys : List String}
    {ir₁ ir₂ : ExpressionExecutionIR}
    (compiled₁ : compileExpression py ctx path e₁ grainKeys roles = .ok ir₁)
    (compiled₂ : compileExpression py ctx path e₂ grainKeys roles = .ok ir₂) :
    (AccountsFor py path e₁ ir₁ ↔ ∀ s ∈ strayTexts e₁, isRefShaped s = false) ∧
      (SlotsCarried py path e₁ e₂ → SlotsTold py path e₁ e₂ ir₁ ir₂) ∧
      (ownRefs py path e₁ = ownRefs py path e₂ →
        (SlotsTold py path e₁ e₂ ir₁ ir₂ ↔ SlotsCarried py path e₁ e₂)) := by
  obtain ⟨_, _, _, _, h₁⟩ := compiled_of_expression compiled₁
  obtain ⟨_, _, _, _, h₂⟩ := compiled_of_expression compiled₂
  have told : SlotsCarried py path e₁ e₂ → SlotsTold py path e₁ e₂ ir₁ ir₂ :=
    fun carried differ same => carried differ (carried_of_payload h₁ h₂ same)
  refine ⟨accountsFor_iff h₁, told, fun own => ⟨fun h differ same => ?_, told⟩⟩
  exact h differ (payload_of_carried h₁ h₂ own same)

end

def txnNode (column : Option String) (isAsOf : Bool) : CatalogNode where
  catalogSource := "bank"
  objectRef := String.intercalate "." (["public", "txn"] ++ column.toList)
  kind := if column.isSome then "column" else "table"
  tableName := "txn"
  columnName := column
  isGrain := false
  isAsOf := isAsOf
  availabilityFactEventId := if isAsOf then some 7 else none
  visibleRequires := []

def txnAvailability : StateRow where
  factKey := factKey id (.object (catalogTableRef "bank" "txn")) .availabilityTime none
  objectRef := "public.txn"
  catalogSource := "bank"
  factType := .availabilityTime
  useCase := none
  status := .verified
  value := some (.availabilityTime "posted_ts" .postedAt none)
  confirmers := []
  confirmedAt := 0
  expiresAt := none
  priorValue := none
  confirmedEventId := 7
  updatedSeq := 7

def txnContext : CompileContext Empty where
  catalog :=
    { nodes := [txnNode none false, txnNode (some "cif_id") false, txnNode (some "amount") false,
        txnNode (some "merchant") false, txnNode (some "txn_ts") false,
        txnNode (some "posted_ts") true]
      factState := fun key => if key = txnAvailability.factKey then some txnAvailability else none
      allowedClasses := fun _ => []
      operationalValue := fun _ _ => ⟨"resolved", some "true"⟩
      effectiveEntity := fun _ _ => ⟨none, none⟩ }
  numberText n := String.ofList n.text
  schemaMessage _ _ := ""
  deriveRequirement _ := .ok ⟨⟨"bank", "core", "txn"⟩, .null⟩
  planTraversal _ := .ok []

def topShare (secondOperand : Option String) (length : ℤ) : AggregateExpressionV3 where
  aggregation := .topShare
  operand := some "bank::public.txn.amount"
  sourceRelation := ⟨"bank::public.txn"⟩
  filter := some (.predicate ⟨.isNotNull, "bank::public.txn.merchant", none, none, none⟩)
  window :=
    { eventTimeRef := "bank::public.txn.txn_ts"
      basis := .trailing
      length := length
      unit := .day
      startInclusive := .exclusive
      endInclusive := .inclusive
      timezone := "UTC"
      emptyWindow := .null
      nullInput := .ignore
      offsetPeriods := 0
      offset_mem := noOffset_mem }
  aggregationArgument := none
  secondOperand := secondOperand
  authorityRefs := none
  rowSelections := []

def compileTopShare (secondOperand : Option String) (length : ℤ) :
    Except (CompileStop Empty) ExpressionExecutionIR :=
  compileExpression letters txnContext "body.expr" (topShare secondOperand length)
    ["bank::public.txn.cif_id"] []

theorem topShare_compiles : ∃ ir, compileTopShare none 90 = .ok ir :=
  isSome_toOption.mp (by decide +kernel)

/-- The second operand repeats a column that the filter reads: both expressions are well formed and
    compiled, the second operand is accounted for nowhere, and the payloads are the same. -/
theorem repeated_second_operand_dropped :
    checkExpressionV2 (topShare (some "bank::public.txn.merchant") 90).toAggregateExpressionV2
        "body.expr" (fun _ => none) = .ok () ∧
      ∃ ir₁ ir₂, compileTopShare none 90 = .ok ir₁ ∧
        compileTopShare (some "bank::public.txn.merchant") 90 = .ok ir₂ ∧
        ¬ AccountsFor letters "body.expr" (topShare (some "bank::public.txn.merchant") 90) ir₂ ∧
        ¬ SlotsTold letters "body.expr" (topShare none 90)
          (topShare (some "bank::public.txn.merchant") 90) ir₁ ir₂ := by
  refine ⟨by decide +kernel, ?_⟩
  obtain ⟨ir₁, h₁⟩ := topShare_compiles
  have repeated : (compileTopShare (some "bank::public.txn.merchant") 90).toOption.isSome = true := by
    decide +kernel
  obtain ⟨ir₂, h₂⟩ := isSome_toOption.mp repeated
  obtain ⟨_, _, _, _, c₁⟩ := compiled_of_expression h₁
  obtain ⟨_, _, _, _, c₂⟩ := compiled_of_expression h₂
  refine ⟨ir₁, ir₂, h₁, h₂, fun accounts => ?_, fun told => ?_⟩
  · have unshaped := (accountsFor_iff c₂).mp accounts "bank::public.txn.merchant"
      (by simp [strayTexts, topShare])
    exact absurd unshaped (by decide +kernel)
  · refine told (fun same => ?_) (payload_of_carried c₁ c₂ rfl rfl)
    exact absurd (congrArg ValueSlots.secondOperand same) (by simp [valueSlots, topShare])

/-- Windows of other lengths are told apart, and nothing of them is left unread. -/
theorem references_accounted_iff_windows :
    ∃ ir₁ ir₂, compileTopShare none 90 = .ok ir₁ ∧ compileTopShare none 30 = .ok ir₂ ∧
      (AccountsFor letters "body.expr" (topShare none 90) ir₁ ↔
        ∀ s ∈ strayTexts (topShare none 90), isRefShaped s = false) ∧
      (SlotsCarried letters "body.expr" (topShare none 90) (topShare none 30) →
        SlotsTold letters "body.expr" (topShare none 90) (topShare none 30) ir₁ ir₂) := by
  obtain ⟨ir₁, h₁⟩ := topShare_compiles
  have shorter : (compileTopShare none 30).toOption.isSome = true := by decide +kernel
  obtain ⟨ir₂, h₂⟩ := isSome_toOption.mp shorter
  have both := references_accounted_iff h₁ h₂
  exact ⟨ir₁, ir₂, h₁, h₂, both.1, both.2.1⟩

end FeatureGen.Materialize
