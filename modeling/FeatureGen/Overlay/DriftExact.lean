import Mathlib
import FeatureGen.Lib.Transition
import FeatureGen.Overlay.DriftGate

/-! # What the drift gate notices

The gate reads an item through its marker. Where the marker parses back and the
item's own row is the first that its query matches, the state that is hashed is that
of the very item, and the gate is exact.
-/

namespace FeatureGen.DriftGate

open Transition

theorem startsWith_append (start s : String) : startsWith start (start ++ s) = true := by
  rw [startsWith, String.toList_append]
  exact List.isPrefixOf_iff_prefix.mpr (List.prefix_append _ _)

theorem afterPrefix_append (start s : String) : afterPrefix start (start ++ s) = s := by
  simp [afterPrefix, String.toList_append]

theorem startsWith_append_eq_false {start other : String}
    (apart : (start.toList.isPrefixOf other.toList || other.toList.isPrefixOf start.toList) = false)
    (s : String) : startsWith start (other ++ s) = false := by
  rw [Bool.or_eq_false_iff] at apart
  apply Bool.eq_false_iff.mpr
  intro starts
  rw [startsWith, String.toList_append, List.isPrefixOf_iff_prefix] at starts
  rcases List.prefix_or_prefix_of_prefix starts (List.prefix_append _ _) with first | second
  · rw [List.isPrefixOf_iff_prefix.mpr first] at apart
    cases apart.1
  · rw [List.isPrefixOf_iff_prefix.mpr second] at apart
    cases apart.2

theorem append_ne_empty {start : String} (some : start ≠ "") (s : String) : start ++ s ≠ "" := by
  intro empty
  apply some
  have chars := congrArg String.toList empty
  rw [String.toList_append] at chars
  exact String.toList_injective (List.append_eq_nil_iff.mp chars).1

theorem sortedPair_comm (a b : String) : sortedPair a b = sortedPair b a := by
  unfold sortedPair
  rcases lt_trichotomy a b with less | same | more
  · rw [if_neg less.asymm, if_pos less]
  · rw [same]
  · rw [if_pos more, if_neg more.asymm]

theorem sortedPair_cases (a b : String) : sortedPair a b = (a, b) ∨ sortedPair a b = (b, a) := by
  unfold sortedPair
  split
  · exact Or.inr rfl
  · exact Or.inl rfl

section Readings

variable {κ : Type} [LinearOrder κ] {x : Dialect κ} {db db' : Database}

theorem signature_joinEdge {catalogSource a b : String} :
    catalogStateSignature x db catalogSource (some (joinEdgeMarker x.lower a b)) =
      joinEdgeSignature x db catalogSource (joinEdgeMarker x.lower a b) := by
  simp only [catalogStateSignature, joinEdgeMarker, startsWith_append]
  rw [if_neg (append_ne_empty (by decide) _)]
  simp

theorem signature_bridgeFact {catalogSource factKey : String} :
    catalogStateSignature x db catalogSource (some (bridgeFactMarker factKey)) =
      bridgeState db factKey := by
  have other : startsWith edgePrefix (bridgeFactPrefix ++ factKey) = false :=
    startsWith_append_eq_false (by decide) _
  simp only [catalogStateSignature, bridgeFactMarker, startsWith_append, other]
  rw [if_neg (append_ne_empty (by decide) _)]
  simp [bridgeFactSignature, afterPrefix_append]

theorem signature_directional {catalogSource body : String} :
    catalogStateSignature x db catalogSource (some (bridgeRealizationPrefix ++ body)) =
      bridgeRealizationSignature db (bridgeRealizationPrefix ++ body) := by
  have edge : startsWith edgePrefix (bridgeRealizationPrefix ++ body) = false :=
    startsWith_append_eq_false (by decide) _
  have bridge : startsWith bridgeFactPrefix (bridgeRealizationPrefix ++ body) = false :=
    startsWith_append_eq_false (by decide) _
  simp only [catalogStateSignature, startsWith_append, edge, bridge]
  rw [if_neg (append_ne_empty (by decide) _)]
  simp

theorem signature_realization {catalogSource rid : String} :
    catalogStateSignature x db catalogSource (some (realizationMarker rid)) =
      realizationSignature x db catalogSource (realizationMarker rid) := by
  have edge : startsWith edgePrefix (realizationPrefix ++ rid) = false :=
    startsWith_append_eq_false (by decide) _
  have bridge : startsWith bridgeFactPrefix (realizationPrefix ++ rid) = false :=
    startsWith_append_eq_false (by decide) _
  have directional : startsWith bridgeRealizationPrefix (realizationPrefix ++ rid) = false :=
    startsWith_append_eq_false (by decide) _
  simp only [catalogStateSignature, realizationMarker, startsWith_append, edge, bridge,
    directional]
  rw [if_neg (append_ne_empty (by decide) _)]
  simp

end Readings

/-- Of the rows a query matches that with the key comes first; where it is not there, the query
    matches none. -/
def Foremost {ρ ι κ : Type} [LinearOrder κ] (key : ρ → ι) (order : ρ → κ) (k : ι)
    (rows : List ρ) : Prop :=
  ∀ r ∈ rows, key r = k ∨ ∃ own ∈ rows, key own = k ∧ order own < order r

section Foremost

variable {ρ ι κ : Type} [DecidableEq ι] [LinearOrder κ] {key : ρ → ι} {order : ρ → κ} {k : ι}
  {rows : List ρ} {t : Table key}

theorem head?_of_foremost (sub : ∀ r ∈ rows, r ∈ t) (own : ∀ r ∈ t, key r = k → r ∈ rows)
    (foremost : Foremost key order k rows) : (KeySort.sortBy order rows).head? = t.get? k := by
  cases hget : t.get? k with
  | none =>
      have absent := Table.get?_eq_none.mp hget
      have nothing : rows = [] := by
        apply List.eq_nil_iff_forall_not_mem.mpr
        intro r hr
        rcases foremost r hr with same | ⟨r', hr', same, _⟩
        · exact absent r (sub r hr) same
        · exact absent r' (sub r' hr') same
      rw [nothing]
      rfl
  | some r =>
      obtain ⟨mem, same⟩ := Table.get?_eq_some.mp hget
      apply KeySort.head?_sortBy order (own r mem same)
      intro r' hr' differ
      rcases foremost r' hr' with same' | ⟨own, hown, same', less⟩
      · exact absurd (Table.eq_of_key_eq (sub r' hr') mem (same'.trans same.symm)) differ
      · obtain rfl := Table.eq_of_key_eq (sub own hown) mem (same'.trans same.symm)
        exact less

end Foremost

def markerPrefixes : List String :=
  [edgePrefix, bridgeFactPrefix, bridgeRealizationPrefix, realizationPrefix]

section Readable

variable {κ : Type} [LinearOrder κ]

/-- The ref or the marker leads back to the item, and its own row is the first its query
    matches. -/
def Item.Readable (x : Dialect κ) (db : Database) (item : Item) (logicalRef : Option String) :
    Prop :=
  match item with
  | .node catalogSource objectRef =>
      (∀ ref ∈ logicalRef, ref ≠ "" ∧ ∀ marker ∈ markerPrefixes, startsWith marker ref = false) ∧
        Foremost GraphNode.key (nodeOrder x) (catalogSource, objectRef)
          (matchingNodes x db catalogSource objectRef)
  | .joinEdge catalogSource fromRef toRef =>
      let ends := edgeEndpoints x.lower fromRef toRef
      parts "|" (edgeBody ends) = ends ∧
        x.sqlLower fromRef = x.lower fromRef ∧ x.sqlLower toRef = x.lower toRef ∧
          Foremost GraphEdge.key (edgeOrder x) (catalogSource, "joins", fromRef, toRef)
            (matchingEdges x db catalogSource ends)
  | .bridge _ => True
  | .realization catalogSource fromRef toRef =>
      (∀ rid, logicalRef = some (realizationMarker rid) →
        (realizationEndpoints rid).1 ≠ "" ∧ (realizationEndpoints rid).2 ≠ "" ∧
          x.sqlLower (realizationEndpoints rid).1 = x.sqlLower fromRef ∧
            x.sqlLower (realizationEndpoints rid).2 = x.sqlLower toRef) ∧
        Foremost GraphEdge.key (edgeOrder x) (catalogSource, "joins", fromRef, toRef)
          (matchingRealizations x db catalogSource (fromRef, toRef))
  | .directional revisionId snapshotId =>
      parts "|" (bridgeRealizationBody revisionId snapshotId) = (revisionId, snapshotId)
  | .idOnly => True

variable {x : Dialect κ} {db db' : Database} {catalogSource : String}
  {logicalRef : Option String}

theorem nodeSignature_eq {objectRef ref : String} (folds : x.sqlLower ref = x.sqlLower objectRef)
    (foremost : Foremost GraphNode.key (nodeOrder x) (catalogSource, objectRef)
      (matchingNodes x db catalogSource objectRef)) :
    nodeSignature x db catalogSource ref = (Item.node catalogSource objectRef).state db := by
  have same : matchingNodes x db catalogSource ref =
      matchingNodes x db catalogSource objectRef := by
    simp only [matchingNodes, folds]
  rw [nodeSignature, same, Item.state]
  congr 1
  apply head?_of_foremost _ _ foremost
  · intro n hn
    exact List.mem_of_mem_filter hn
  · intro n hn key
    obtain ⟨rfl, rfl⟩ := Prod.mk.inj key
    exact List.mem_filter.mpr ⟨hn, by simp⟩

theorem joinEdgeSignature_eq {fromRef toRef a b : String}
    (named : (x.lower a = x.lower fromRef ∧ x.lower b = x.lower toRef) ∨
      (x.lower a = x.lower toRef ∧ x.lower b = x.lower fromRef))
    (readable : (Item.joinEdge catalogSource fromRef toRef).Readable x db logicalRef) :
    joinEdgeSignature x db catalogSource (joinEdgeMarker x.lower a b) =
      (Item.joinEdge catalogSource fromRef toRef).state db := by
  obtain ⟨parses, foldsFrom, foldsTo, foremost⟩ := readable
  have ends : edgeEndpoints x.lower a b = edgeEndpoints x.lower fromRef toRef := by
    rcases named with ⟨ha, hb⟩ | ⟨ha, hb⟩
    · rw [edgeEndpoints, ha, hb, edgeEndpoints]
    · rw [edgeEndpoints, ha, hb, sortedPair_comm, edgeEndpoints]
  simp only [joinEdgeSignature, joinEdgeMarker, afterPrefix_append, ends, parses, Item.state]
  congr 1
  apply head?_of_foremost _ _ foremost
  · intro e he
    exact List.mem_of_mem_filter he
  · intro e he key
    simp only [GraphEdge.key, Prod.mk.injEq] at key
    obtain ⟨rfl, isJoin, rfl, rfl⟩ := key
    apply List.mem_filter.mpr
    refine ⟨he, ?_⟩
    simp only [isJoin, foldsFrom, foldsTo, edgeEndpoints, true_and, decide_eq_true_eq]
    rcases sortedPair_cases (x.lower e.fromRef) (x.lower e.toRef) with pair | pair
    · rw [pair]
      exact Or.inl ⟨rfl, rfl⟩
    · rw [pair]
      exact Or.inr ⟨rfl, rfl⟩

theorem realizationSignature_eq {fromRef toRef rid : String}
    (readable : (Item.realization catalogSource fromRef toRef).Readable x db
      (some (realizationMarker rid))) :
    realizationSignature x db catalogSource (realizationMarker rid) =
      (Item.realization catalogSource fromRef toRef).state db := by
  obtain ⟨parses, foremost⟩ := readable
  obtain ⟨someFrom, someTo, foldsFrom, foldsTo⟩ := parses rid rfl
  have same : matchingRealizations x db catalogSource (realizationEndpoints rid) =
      matchingRealizations x db catalogSource (fromRef, toRef) := by
    simp only [matchingRealizations, foldsFrom, foldsTo]
  simp only [realizationSignature, realizationMarker, afterPrefix_append, someFrom, someTo,
    or_self, if_false, same, Item.state]
  congr 1
  apply head?_of_foremost _ _ foremost
  · intro e he
    exact List.mem_of_mem_filter he
  · intro e he key
    simp only [GraphEdge.key, Prod.mk.injEq] at key
    obtain ⟨rfl, isJoin, rfl, rfl⟩ := key
    exact List.mem_filter.mpr ⟨he, by simp [isJoin]⟩

theorem catalogStateSignature_eq {item : Item} (named : item.Names x catalogSource logicalRef)
    (readable : item.Readable x db logicalRef) :
    catalogStateSignature x db catalogSource logicalRef = item.state db := by
  cases item with
  | node catalog objectRef =>
      obtain ⟨rfl, ref, rfl, folds⟩ := named
      obtain ⟨plain, foremost⟩ := readable
      obtain ⟨some, unmarked⟩ := plain ref rfl
      have edge := unmarked edgePrefix (by simp [markerPrefixes])
      have bridge := unmarked bridgeFactPrefix (by simp [markerPrefixes])
      have directional := unmarked bridgeRealizationPrefix (by simp [markerPrefixes])
      have realization := unmarked realizationPrefix (by simp [markerPrefixes])
      simp only [catalogStateSignature, some, edge, bridge, directional, realization, if_false,
        Bool.false_eq_true]
      exact nodeSignature_eq folds foremost
  | joinEdge catalog fromRef toRef =>
      obtain ⟨rfl, a, b, rfl, named⟩ := named
      rw [signature_joinEdge]
      exact joinEdgeSignature_eq named readable
  | bridge factKey =>
      obtain rfl := named
      exact signature_bridgeFact
  | realization catalog fromRef toRef =>
      obtain ⟨rfl, prefixed, a, b, rfl, _, _⟩ := named
      rw [signature_realization]
      exact realizationSignature_eq readable
  | directional revisionId snapshotId =>
      obtain ⟨someRevision, someSnapshot, rfl⟩ := named
      have parses : parts "|" (bridgeRealizationBody revisionId snapshotId) =
          (revisionId, snapshotId) := readable
      rw [bridgeRealizationMarker, signature_directional]
      simp only [bridgeRealizationSignature, afterPrefix_append, parses, someRevision,
        someSnapshot, or_self, if_false, Item.state]
  | idOnly =>
      obtain rfl := named
      rfl

end Readable

section Hashes

variable {κ H : Type} [LinearOrder κ] {x : Dialect κ}
  {canonicalHash : DependencyRef × HashedState → H} {db db' : Database} {ref ref' : DependencyRef}

theorem ref_of_confirmDependencyHash (inj : Function.Injective canonicalHash)
    (h : confirmDependencyHash x canonicalHash db ref =
      confirmDependencyHash x canonicalHash db' ref') : ref = ref' := by
  unfold confirmDependencyHash at h
  split at h <;> split at h <;> exact congrArg Prod.fst (inj h)

theorem currentDependencyHash_eq_iff (inj : Function.Injective canonicalHash) :
    currentDependencyHash x canonicalHash db' ref = confirmDependencyHash x canonicalHash db ref ↔
      ∃ signature, catalogStateSignature x db ref.catalogSource ref.logicalRef = some signature ∧
        catalogStateSignature x db' ref.catalogSource ref.logicalRef = some signature := by
  unfold currentDependencyHash confirmDependencyHash
  cases catalogStateSignature x db ref.catalogSource ref.logicalRef <;>
    cases catalogStateSignature x db' ref.catalogSource ref.logicalRef <;>
    simp [inj.eq_iff, eq_comm]

end Hashes

section Rows

variable {κ H : Type} [LinearOrder κ] [DecidableEq H] {x : Dialect κ}
  {canonicalHash : DependencyRef × HashedState → H} {db : Database}
  {rows : List (DependencyRow H)} {row : DependencyRow H} {ref : DependencyRef}

/-- Every row has the hash of its item at some confirmation. -/
def Hashed (x : Dialect κ) (canonicalHash : DependencyRef × HashedState → H)
    (rows : List (DependencyRow H)) : Prop :=
  ∀ row ∈ rows, ∃ db, row.itemHash = confirmDependencyHash x canonicalHash db row.ref

theorem mem_insertDependency (inj : Function.Injective canonicalHash)
    (hashed : Hashed x canonicalHash rows) :
    row ∈ insertDependency x canonicalHash db rows ref ↔
      row ∈ rows ∨ row = ⟨ref, confirmDependencyHash x canonicalHash db ref⟩ := by
  unfold insertDependency
  simp only
  split
  · next conflict =>
      obtain ⟨row', hrow', same⟩ := List.any_eq_true.mp conflict
      obtain ⟨db', hash⟩ := hashed row' hrow'
      have known : row' = ⟨ref, confirmDependencyHash x canonicalHash db ref⟩ := by
        have hash' := (of_decide_eq_true same).2
        have refs := ref_of_confirmDependencyHash inj (hash.symm.trans hash')
        cases row'
        simp_all
      constructor
      · exact Or.inl
      · intro h
        rcases h with old | new
        · exact old
        · rw [new, ← known]
          exact hrow'
  · simp

theorem Hashed.insert (inj : Function.Injective canonicalHash)
    (hashed : Hashed x canonicalHash rows) :
    Hashed x canonicalHash (insertDependency x canonicalHash db rows ref) := by
  intro row hrow
  rcases (mem_insertDependency inj hashed).mp hrow with old | rfl
  · exact hashed row old
  · exact ⟨db, rfl⟩

theorem confirm_rows (inj : Function.Injective canonicalHash) (deps : List (Dependency x))
    (hashed : Hashed x canonicalHash rows) :
    let after := deps.foldl (fun rows dep => insertDependency x canonicalHash db rows dep.ref) rows
    Hashed x canonicalHash after ∧ ∀ row, row ∈ after ↔ row ∈ rows ∨
      ∃ dep ∈ deps, row = ⟨dep.ref, confirmDependencyHash x canonicalHash db dep.ref⟩ := by
  induction deps generalizing rows with
  | nil => exact ⟨hashed, by simp⟩
  | cons dep deps ih =>
      obtain ⟨hashed', members⟩ := ih (hashed.insert inj)
      refine ⟨hashed', fun row => ?_⟩
      rw [List.foldl_cons, members, mem_insertDependency inj hashed, or_assoc]
      simp

end Rows

/-- The same rows, in whatever order they are returned. -/
structure Database.Same (db db' : Database) : Prop where
  nodes : db.nodes.rows.Perm db'.nodes.rows
  edges : db.edges.rows.Perm db'.edges.rows
  bridges : db.bridges.rows.Perm db'.bridges.rows
  streams : db.streams = db'.streams
  realizations : db.realizations.Perm db'.realizations

section Order

variable {κ H : Type} [LinearOrder κ] {x : Dialect κ} {db db' : Database}

theorem get?_perm {ρ ι : Type} [DecidableEq ι] {key : ρ → ι} {t t' : Table key} {k : ι}
    (perm : t.rows.Perm t'.rows) : t.get? k = t'.get? k := by
  cases h : t'.get? k with
  | none =>
      rw [Table.get?_eq_none] at h ⊢
      intro r hr
      exact h r (perm.mem_iff.mp hr)
  | some r =>
      rw [Table.get?_eq_some] at h ⊢
      exact ⟨perm.mem_iff.mpr h.1, h.2⟩

theorem bridgeRealizationState_perm {revisionId snapshotId : String}
    (perm : db.realizations.Perm db'.realizations) :
    bridgeRealizationState db revisionId snapshotId =
      bridgeRealizationState db' revisionId snapshotId := by
  unfold bridgeRealizationState
  have found := perm.filter fun r => r.realizationRevisionId = revisionId
  have count := found.length_eq
  generalize (db.realizations.filter fun r => r.realizationRevisionId = revisionId) = rows at *
  generalize (db'.realizations.filter fun r => r.realizationRevisionId = revisionId) = rows' at *
  cases rows' with
  | nil => rw [found.eq_nil]
  | cons r rest =>
      cases rest with
      | nil => rw [List.perm_singleton.mp found]
      | cons r' rest =>
          cases rows with
          | nil => simp at count
          | cons a more =>
              cases more with
              | nil => simp at count
              | cons b more => rfl

omit [LinearOrder κ] in
theorem edgeOrder_injective {p : GraphEdge → Bool} (catalogSource : String)
    (joins : ∀ e, p e = true → e.catalogSource = catalogSource ∧ e.kind = "joins")
    (perm : db.edges.rows.Perm db'.edges.rows) :
    ∀ a ∈ db.edges.rows.filter p, ∀ b ∈ db'.edges.rows.filter p,
      edgeOrder x a = edgeOrder x b → a = b := by
  intro a ha b hb same
  obtain ⟨memA, pa⟩ := List.mem_filter.mp ha
  obtain ⟨memB, pb⟩ := List.mem_filter.mp hb
  obtain ⟨sourceA, kindA⟩ := joins a pa
  obtain ⟨sourceB, kindB⟩ := joins b pb
  simp only [edgeOrder, EmbeddingLike.apply_eq_iff_eq, Prod.mk.injEq] at same
  have fromRef := x.collate_injective same.1
  have toRef := x.collate_injective same.2
  apply Table.eq_of_key_eq (perm.mem_iff.mp memA) memB
  simp [GraphEdge.key, sourceA, sourceB, kindA, kindB, fromRef, toRef]

theorem catalogStateSignature_same (same : db.Same db') {catalogSource : String}
    {logicalRef : Option String} : catalogStateSignature x db catalogSource logicalRef =
      catalogStateSignature x db' catalogSource logicalRef := by
  have edges (ends : String × String) :
      KeySort.sortBy (edgeOrder x) (matchingEdges x db catalogSource ends) =
        KeySort.sortBy (edgeOrder x) (matchingEdges x db' catalogSource ends) := by
    apply (KeySort.sortBy_eq_iff _).mpr (same.edges.filter _)
    apply edgeOrder_injective catalogSource _ same.edges
    intro e he
    exact ⟨(of_decide_eq_true he).1, (of_decide_eq_true he).2.1⟩
  have realizations (ends : String × String) :
      KeySort.sortBy (edgeOrder x) (matchingRealizations x db catalogSource ends) =
        KeySort.sortBy (edgeOrder x) (matchingRealizations x db' catalogSource ends) := by
    apply (KeySort.sortBy_eq_iff _).mpr (same.edges.filter _)
    apply edgeOrder_injective catalogSource _ same.edges
    intro e he
    exact ⟨(of_decide_eq_true he).1, (of_decide_eq_true he).2.1⟩
  have nodes (ref : String) :
      KeySort.sortBy (nodeOrder x) (matchingNodes x db catalogSource ref) =
        KeySort.sortBy (nodeOrder x) (matchingNodes x db' catalogSource ref) := by
    apply (KeySort.sortBy_eq_iff _).mpr (same.nodes.filter _)
    intro a ha b hb order
    obtain ⟨memA, pa⟩ := List.mem_filter.mp ha
    obtain ⟨memB, pb⟩ := List.mem_filter.mp hb
    apply Table.eq_of_key_eq (t := db'.nodes) (same.nodes.mem_iff.mp memA) memB
    exact Prod.ext ((of_decide_eq_true pa).1.trans (of_decide_eq_true pb).1.symm)
      (x.collate_injective order)
  have bridge (factKey : String) : bridgeState db factKey = bridgeState db' factKey := by
    simp only [bridgeState, same.streams, get?_perm same.bridges]
  have directional (revisionId snapshotId : String) :
      bridgeRealizationState db revisionId snapshotId =
        bridgeRealizationState db' revisionId snapshotId :=
    bridgeRealizationState_perm same.realizations
  cases logicalRef with
  | none => rfl
  | some ref =>
      simp only [catalogStateSignature, joinEdgeSignature, bridgeFactSignature,
        bridgeRealizationSignature, realizationSignature, nodeSignature, edges, realizations,
        nodes, bridge, directional]

theorem dependenciesDrifted_same [DecidableEq H] {canonicalHash : DependencyRef × HashedState → H}
    {rows rows' : List (DependencyRow H)} (same : db.Same db') (perm : rows.Perm rows')
    (contractId : String) : dependenciesDrifted x canonicalHash db rows contractId =
      dependenciesDrifted x canonicalHash db' rows' contractId := by
  have hashes (ref : DependencyRef) : currentDependencyHash x canonicalHash db ref =
      currentDependencyHash x canonicalHash db' ref := by
    simp only [currentDependencyHash, catalogStateSignature_same same]
  simp only [dependenciesDrifted, hashes]
  exact (perm.filter _).any_eq

end Order

section Runs

variable {κ H : Type} [LinearOrder κ] [DecidableEq H] {x : Dialect κ}
  {canonicalHash : DependencyRef × HashedState → H} {w₀ w : World H} {as : List (Action x)}

/-- The dependency rows are those of the confirmations so far. -/
structure Recorded (canonicalHash : DependencyRef × HashedState → H)
    (past : List (Move (World H) (Action x))) (rows : List (DependencyRow H)) : Prop where
  hashed : Hashed x canonicalHash rows
  rows : ∀ row, row ∈ rows ↔ ∃ m ∈ past, ∃ deps, m.action = .confirm deps ∧ ∃ dep ∈ deps,
    row = ⟨dep.ref, confirmDependencyHash x canonicalHash m.before.db dep.ref⟩

theorem recorded_of_run (inj : Function.Injective canonicalHash) (init : w₀.rows = [])
    (run : exec (step x canonicalHash) w₀ as = some w) :
    Recorded canonicalHash (history (step x canonicalHash) w₀ as) w.rows := by
  apply exec_history_induction (P := fun past w => Recorded canonicalHash past w.rows) _ _ run
  · rw [init]
    exact ⟨fun row hrow => absurd hrow List.not_mem_nil, by simp⟩
  · intro past s a s' inv hstep
    cases a with
    | change db =>
        obtain rfl := Option.some.inj hstep
        exact ⟨inv.hashed, fun row => by rw [inv.rows]; simp⟩
    | confirm deps =>
        obtain rfl := Option.some.inj hstep
        obtain ⟨hashed, members⟩ := confirm_rows inj deps inv.hashed
        refine ⟨hashed, fun row => ?_⟩
        rw [members, inv.rows]
        simp [or_and_right, exists_or]

/-- Without a condition: a row has not drifted if what its ref reads resolved at its
    confirmation and reads the same now. -/
theorem dependenciesDrifted_eq_false (inj : Function.Injective canonicalHash)
    (recorded : Recorded canonicalHash (history (step x canonicalHash) w₀ as) w.rows)
    (contractId : String) :
    dependenciesDrifted x canonicalHash w.db w.rows contractId = false ↔
      ∀ m ∈ history (step x canonicalHash) w₀ as, ∀ deps, m.action = .confirm deps →
        ∀ dep ∈ deps, dep.ref.contractId = contractId →
          ∃ signature, catalogStateSignature x m.before.db dep.ref.catalogSource
              dep.ref.logicalRef = some signature ∧
            catalogStateSignature x w.db dep.ref.catalogSource dep.ref.logicalRef =
              some signature := by
  simp only [dependenciesDrifted, List.any_eq_false, List.mem_filter, decide_eq_true_eq, not_not,
    and_imp, recorded.rows]
  constructor
  · intro same m hm deps isConfirm dep hdep contract
    apply (currentDependencyHash_eq_iff inj).mp
    exact same _ ⟨m, hm, deps, isConfirm, dep, hdep, rfl⟩ contract
  · intro same row hrow contract
    obtain ⟨m, hm, deps, isConfirm, dep, hdep, rfl⟩ := hrow
    apply (currentDependencyHash_eq_iff inj).mpr
    exact same m hm deps isConfirm dep hdep contract

/-- Where every item confirmed for a contract was readable then and is now, the gate is exact:
    it opens for the contract if its items all resolved and are what they were. -/
theorem drift_exact_of_readable (inj : Function.Injective canonicalHash) (init : w₀.rows = [])
    (run : exec (step x canonicalHash) w₀ as = some w) (contractId : String)
    (readable : ∀ m ∈ history (step x canonicalHash) w₀ as, ∀ deps, m.action = .confirm deps →
      ∀ dep ∈ deps, dep.ref.contractId = contractId →
        dep.item.Readable x m.before.db dep.ref.logicalRef ∧
          dep.item.Readable x w.db dep.ref.logicalRef) :
    (dependenciesDrifted x canonicalHash w.db w.rows contractId = false ↔
      ∀ m ∈ history (step x canonicalHash) w₀ as, ∀ deps, m.action = .confirm deps →
        ∀ dep ∈ deps, dep.ref.contractId = contractId →
          ∃ signature, dep.item.state m.before.db = some signature ∧
            dep.item.state w.db = some signature) ∧
    ∀ db rows, w.db.Same db → w.rows.Perm rows →
      dependenciesDrifted x canonicalHash db rows contractId =
        dependenciesDrifted x canonicalHash w.db w.rows contractId := by
  have recorded := recorded_of_run inj init run
  refine ⟨?_, ?_⟩
  · rw [dependenciesDrifted_eq_false inj recorded]
    have read (m : Move (World H) (Action x)) (hm : m ∈ history (step x canonicalHash) w₀ as)
        (deps : List (Dependency x)) (isConfirm : m.action = .confirm deps)
        (dep : Dependency x) (hdep : dep ∈ deps) (contract : dep.ref.contractId = contractId) :
        catalogStateSignature x m.before.db dep.ref.catalogSource dep.ref.logicalRef =
            dep.item.state m.before.db ∧
          catalogStateSignature x w.db dep.ref.catalogSource dep.ref.logicalRef =
            dep.item.state w.db := by
      obtain ⟨before, now⟩ := readable m hm deps isConfirm dep hdep contract
      exact ⟨catalogStateSignature_eq dep.named before, catalogStateSignature_eq dep.named now⟩
    constructor
    · intro same m hm deps isConfirm dep hdep contract
      obtain ⟨before, now⟩ := read m hm deps isConfirm dep hdep contract
      rw [← before, ← now]
      exact same m hm deps isConfirm dep hdep contract
    · intro same m hm deps isConfirm dep hdep contract
      obtain ⟨before, now⟩ := read m hm deps isConfirm dep hdep contract
      rw [before, now]
      exact same m hm deps isConfirm dep hdep contract
  · intro db rows same perm
    exact (dependenciesDrifted_same same perm contractId).symm

end Runs

section Joins

abbrev ascii : Dialect String :=
  ⟨Overlay.asciiLower, Overlay.asciiLower, id, Function.injective_id⟩

def ordersJoin (authority : String) (status : Option String) : GraphEdge :=
  ⟨"core", "joins", "public.orders.customer_id", "public.customers.id", some "N:1", authority,
    status, some "fact-1"⟩

def customersJoin : GraphEdge :=
  ⟨"core", "joins", "public.customers.id", "public.orders.customer_id", some "1:N",
    "operational", some "VERIFIED", some "fact-2"⟩

def approvedJoin : GraphEdge := ordersJoin "operational" (some "VERIFIED")

def demotedJoin : GraphEdge := ordersJoin "display_only" (some "REVERIFY")

theorem joins_nodup (authority : String) (status : Option String) :
    ([ordersJoin authority status, customersJoin].map GraphEdge.key).Nodup := by
  simp [GraphEdge.key, ordersJoin, customersJoin]

def bothJoins (authority : String) (status : Option String) : Database where
  nodes := .empty
  edges := ⟨[ordersJoin authority status, customersJoin], joins_nodup authority status⟩
  bridges := .empty
  streams := fun _ => none
  realizations := []

def oneJoin (authority : String) (status : Option String) : Database where
  nodes := .empty
  edges := ⟨[ordersJoin authority status], List.nodup_singleton _⟩
  bridges := .empty
  streams := fun _ => none
  realizations := []

def ordersMarker : String :=
  joinEdgeMarker Overlay.asciiLower "public.orders.customer_id" "public.customers.id"

def ordersItem : Item := .joinEdge "core" "public.orders.customer_id" "public.customers.id"

theorem ordersItem_named : ordersItem.Names ascii "core" (some ordersMarker) :=
  ⟨rfl, _, _, rfl, Or.inl ⟨rfl, rfl⟩⟩

/-- A contract whose plan joins the orders to the customers. -/
def ordersDependency : Dependency ascii where
  ref := ⟨"c-1", "core", some ordersMarker, some ordersMarker, none, none, none⟩
  item := ordersItem
  named := ordersItem_named

/-- The contract is confirmed while the join is approved; the approval is lost. -/
def demotion (database : String → Option String → Database) : List (Action ascii) :=
  [.confirm [ordersDependency], .change (database "display_only" (some "REVERIFY"))]

/-- The other join is read in its place, and the gate stays open. -/
theorem demotion_unnoticed :
    ∃ w, exec (step ascii id) ⟨bothJoins "operational" (some "VERIFIED"), []⟩
        (demotion bothJoins) = some w ∧
      dependenciesDrifted ascii id w.db w.rows "c-1" = false ∧
        ordersItem.state (bothJoins "operational" (some "VERIFIED")) =
            some (.edge approvedJoin.joinState) ∧
          ordersItem.state w.db = some (.edge demotedJoin.joinState) ∧
            approvedJoin.joinState ≠ demotedJoin.joinState := by
  refine ⟨_, rfl, ?_, ?_, ?_, ?_⟩
  · decide +kernel
  · decide +kernel
  · decide +kernel
  · decide +kernel

theorem ordersItem_readable (authority : String) (status : Option String) :
    ordersItem.Readable ascii (oneJoin authority status) (some ordersMarker) := by
  refine ⟨by decide +kernel, rfl, rfl, ?_⟩
  intro e he
  have only := List.mem_of_mem_filter he
  obtain rfl := List.mem_singleton.mp only
  exact Or.inl rfl

/-- The database before the confirmation. -/
def oneJoinApproved : World (DependencyRef × HashedState) :=
  ⟨oneJoin "operational" (some "VERIFIED"), []⟩

/-- An item of another contract that the gate cannot read back. -/
def unnamedDependency : Dependency ascii where
  ref := ⟨"c-2", "core", some "", some "", none, none, none⟩
  item := .node "core" ""
  named := ⟨rfl, "", rfl, rfl⟩

def demotionBeside : List (Action ascii) :=
  [.confirm [ordersDependency, unnamedDependency],
    .change (oneJoin "display_only" (some "REVERIFY"))]

/-- Where it is the only join between the columns, the gate closes, whatever else another
    contract rests on. -/
theorem drift_exact_of_readable_demotion :
    ∃ w, exec (step ascii id) oneJoinApproved demotionBeside = some w ∧
      ¬unnamedDependency.item.Readable ascii w.db unnamedDependency.ref.logicalRef ∧
        dependenciesDrifted ascii id w.db w.rows "c-1" = true := by
  obtain ⟨w, run⟩ : ∃ w, exec (step ascii id) oneJoinApproved demotionBeside = some w :=
    ⟨_, rfl⟩
  have now : w.db = oneJoin "display_only" (some "REVERIFY") := by
    cases run
    rfl
  have confirmed : ∃ m ∈ history (step ascii id) oneJoinApproved demotionBeside,
      m.action = .confirm [ordersDependency, unnamedDependency] ∧ m.before = oneJoinApproved :=
    ⟨_, List.mem_cons_self, rfl, rfl⟩
  have gate := drift_exact_of_readable Function.injective_id rfl run "c-1"
    (fun m hm deps hdeps => by
      have first : m.before = oneJoinApproved ∧ deps = [ordersDependency, unnamedDependency] := by
        rcases List.mem_cons.mp hm with rfl | later
        · exact ⟨rfl, (Action.confirm.inj hdeps).symm⟩
        · obtain rfl := List.mem_singleton.mp later
          cases hdeps
      intro dep hdep contract
      rw [first.2, List.mem_pair] at hdep
      rcases hdep with rfl | rfl
      · rw [first.1, now]
        exact ⟨ordersItem_readable _ _, ordersItem_readable _ _⟩
      · exact absurd contract (by decide))
  refine ⟨w, run, fun readable => (readable.1 "" rfl).1 rfl, ?_⟩
  by_contra unnoticed
  obtain ⟨m, hm, isConfirm, before⟩ := confirmed
  obtain ⟨signature, resolved, same⟩ := gate.1.mp (Bool.eq_false_iff.mpr unnoticed) m hm _
    isConfirm ordersDependency List.mem_cons_self rfl
  rw [before] at resolved
  rw [now] at same
  have differ : ordersItem.state (oneJoin "operational" (some "VERIFIED")) ≠
      ordersItem.state (oneJoin "display_only" (some "REVERIFY")) := by
    decide +kernel
  exact differ (resolved.trans same.symm)

end Joins

end FeatureGen.DriftGate
