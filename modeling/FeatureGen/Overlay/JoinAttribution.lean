import FeatureGen.Overlay.JoinLayers

/-! # Which hops an outcome reports

The hops reported by `classify_join_path` are looked up by their column pair among
all edges of the class, and the fact key of a pair is that of the last edge over it.
The layers, their shortest chains and the denied hops are exact; the unverified ones
are when each hop of the chain answers for its own columns.
-/

namespace FeatureGen.Overlay

/-- The columns of a hop. -/
def JoinStep.pair (s : JoinStep) : String × String := (s.fromRef, s.toRef)

/-- The first layer that joins the tables decides the outcome, with a shortest chain of its
    hops; the reported hops are those of the chain that are not cleared, or not visible. -/
structure ExactOutcome (g : Multigraph) (roles : List String) (fromTable toTable : String)
    (outcome : Option JoinOutcome) : Prop where
  operational : Joined (g.Clears roles) fromTable toTable →
    ∃ steps, outcome = some (.operational steps) ∧
      Shortest (g.Clears roles) fromTable steps toTable
  unverified : ¬ Joined (g.Clears roles) fromTable toTable →
    Joined (g.Reads roles) fromTable toTable →
    ∃ steps endpoints factKeys, outcome = some (.unverified steps endpoints factKeys) ∧
      Shortest (g.Reads roles) fromTable steps toTable ∧
      endpoints = (steps.filter fun s => s.cleared = false).map (·.pair) ∧
      factKeys.map some = (steps.filter fun s => s.cleared = false).map (·.approvedJoinFactKey)
  denied : ¬ Joined (g.Reads roles) fromTable toTable → Joined (· ∈ g.edges) fromTable toTable →
    ∃ steps, Traversed (classifiedEdges g.rows roles).all fromTable toTable steps ∧
      Shortest (· ∈ g.edges) fromTable steps toTable ∧
      outcome = some (.denied ((steps.filter fun s => ¬ g.Visible roles s).map (·.pair)))
  noPath : ¬ Joined (· ∈ g.edges) fromTable toTable → outcome = some .noPath

def LastOver (edges : List Edge) (pair : String × String) (e : Edge) : Prop :=
  ∃ before after, edges = before ++ e :: after ∧ e.pair = pair ∧ ∀ e' ∈ after, e'.pair ≠ pair

/-- The edge whose fact is reported for a hop: the last one over its columns, else the last
    one over them the other way. A blank key counts as none. -/
inductive Answers (edges : List Edge) (s : JoinStep) : Edge → Prop
  | along {e : Edge} (last : LastOver edges s.pair e) (keyed : e.approvedJoinFactKey ≠ some "") :
      Answers edges s e
  | back {e : Edge} (none : ∀ e', LastOver edges s.pair e' → e'.approvedJoinFactKey = some "")
      (last : LastOver edges s.pair.swap e) : Answers edges s e

/-- The hop is reported for itself: no unverified edge is over the columns of a cleared one,
    and the edge that answers for another carries the hop's own fact. -/
structure Attributed (unverified : List Edge) (s : JoinStep) : Prop where
  clear : s.cleared = true → ∀ e ∈ unverified, e.pair ≠ s.pair ∧ e.pair ≠ s.pair.swap
  own : s.cleared = false →
    ∃ e, Answers unverified s e ∧ e.approvedJoinFactKey = s.approvedJoinFactKey

/-- Where no cleared chain joins the tables, every hop of the chain that the search takes over
    the visible edges is reported for itself. -/
def Attributable (g : Multigraph) (roles : List String) (fromTable toTable : String) : Prop :=
  ¬ Joined (g.Clears roles) fromTable toTable →
    ∀ steps, Traversed (g.readable roles) fromTable toTable steps →
      ∀ s ∈ steps, Attributed (g.unverified roles) s

section Lookup

variable {g : Multigraph} {roles : List String}

theorem exists_key_of_not_cleared {s : JoinStep} (h : s.cleared = false) :
    ∃ key, s.approvedJoinFactKey = some key := by
  cases hkey : s.approvedJoinFactKey with
  | none => simp [JoinStep.cleared, hkey] at h
  | some key => exact ⟨key, rfl⟩

theorem LastOver.mem {edges : List Edge} {pair : String × String} {e : Edge}
    (h : LastOver edges pair e) : e ∈ edges := by
  obtain ⟨before, after, split, _⟩ := h
  simp [split]

theorem LastOver.keyed {pair : String × String} {e : Edge}
    (h : LastOver (g.unverified roles) pair e) : ∃ key, e.approvedJoinFactKey = some key :=
  exists_key_of_not_cleared (Multigraph.mem_unverified.mp h.mem).2

theorem find?_reverse_eq_some {edges : List Edge} {pair : String × String} {e : Edge} :
    (edges.reverse.find? fun e => decide ((e.fromRef, e.toRef) = pair)) = some e ↔
      LastOver edges pair e := by
  rw [List.find?_eq_some_iff_append]
  constructor
  · intro h
    obtain ⟨same, after, before, split, others⟩ := h
    have order : edges = before.reverse ++ e :: after.reverse := by
      rw [← List.reverse_reverse edges, split]
      simp
    refine ⟨before.reverse, after.reverse, order, of_decide_eq_true same, ?_⟩
    intro e' he'
    simpa [JoinStep.pair] using others e' (List.mem_reverse.mp he')
  · intro h
    obtain ⟨before, after, split, same, others⟩ := h
    refine ⟨decide_eq_true same, after.reverse, before.reverse, by simp [split], ?_⟩
    intro e' he'
    simpa [JoinStep.pair] using others e' (List.mem_reverse.mp he')

theorem unverifiedFact_eq_some_iff {pair : String × String} {key : String} :
    (classifiedEdges g.rows roles).unverifiedFact pair = some key ↔
      ∃ e, LastOver (g.unverified roles) pair e ∧ e.approvedJoinFactKey = some key := by
  rw [ClassifiedEdges.unverifiedFact, Multigraph.unverified_rows, Option.bind_eq_some_iff]
  simp only [find?_reverse_eq_some]

theorem unverifiedFact_eq_none {pair : String × String}
    (h : (classifiedEdges g.rows roles).unverifiedFact pair = none) (e : Edge) :
    ¬ LastOver (g.unverified roles) pair e := by
  intro last
  obtain ⟨key, hkey⟩ := last.keyed
  rw [unverifiedFact_eq_some_iff.mpr ⟨e, last, hkey⟩] at h
  simp at h

theorem LastOver.unique {edges : List Edge} {pair : String × String} {e e' : Edge}
    (h : LastOver edges pair e) (h' : LastOver edges pair e') : e = e' := by
  rw [← find?_reverse_eq_some] at h h'
  rw [h] at h'
  exact Option.some.inj h'

theorem exists_lastOver {edges : List Edge} {e : Edge} (he : e ∈ edges) :
    ∃ e', LastOver edges e.pair e' := by
  cases hfind : edges.reverse.find? fun e' => decide ((e'.fromRef, e'.toRef) = e.pair) with
  | none =>
      have off := List.find?_eq_none.mp hfind e (List.mem_reverse.mpr he)
      simp [JoinStep.pair] at off
  | some e' => exact ⟨e', find?_reverse_eq_some.mp hfind⟩

theorem unverifiedFact_isSome {pair : String × String} :
    ((classifiedEdges g.rows roles).unverifiedFact pair).isSome = true ↔
      ∃ e ∈ g.unverified roles, e.pair = pair := by
  rw [Option.isSome_iff_exists]
  constructor
  · intro h
    obtain ⟨key, hkey⟩ := h
    obtain ⟨e, last, _⟩ := unverifiedFact_eq_some_iff.mp hkey
    obtain ⟨_, _, _, same, _⟩ := id last
    exact ⟨e, last.mem, same⟩
  · intro h
    obtain ⟨e, he, same⟩ := h
    obtain ⟨e', last⟩ := exists_lastOver he
    obtain ⟨key, hkey⟩ := last.keyed
    exact ⟨key, unverifiedFact_eq_some_iff.mpr ⟨e', same ▸ last, hkey⟩⟩

theorem factKey_eq_some {s : JoinStep} {key : String} :
    (classifiedEdges g.rows roles).factKey s.pair = some key ↔
      ∃ e, Answers (g.unverified roles) s e ∧ e.approvedJoinFactKey = some key := by
  rw [ClassifiedEdges.factKey]
  cases hfact : (classifiedEdges g.rows roles).unverifiedFact s.pair with
  | none =>
      rw [Option.filter_none, Option.none_or, unverifiedFact_eq_some_iff]
      constructor
      · intro h
        obtain ⟨e, last, hkey⟩ := h
        exact ⟨e, .back (fun e' last' => absurd last' (unverifiedFact_eq_none hfact e')) last, hkey⟩
      · intro h
        obtain ⟨e, answers, hkey⟩ := h
        cases answers with
        | along last _ => exact absurd last (unverifiedFact_eq_none hfact e)
        | back _ last => exact ⟨e, last, hkey⟩
  | some first =>
      obtain ⟨e₁, last₁, hfirst⟩ := unverifiedFact_eq_some_iff.mp hfact
      by_cases blank : first = ""
      · have dropped : (some first).filter (fun k => decide (k ≠ "")) = none := by
          simp [Option.filter, blank]
        rw [dropped, Option.none_or, unverifiedFact_eq_some_iff]
        rw [blank] at hfirst
        constructor
        · intro h
          obtain ⟨e, last, hkey⟩ := h
          refine ⟨e, .back ?_ last, hkey⟩
          intro e' last'
          rw [last'.unique last₁, hfirst]
        · intro h
          obtain ⟨e, answers, hkey⟩ := h
          cases answers with
          | along last keyed =>
              rw [last.unique last₁] at keyed
              exact absurd hfirst keyed
          | back _ last => exact ⟨e, last, hkey⟩
      · have kept : (some first).filter (fun k => decide (k ≠ "")) = some first := by
          simp [Option.filter, blank]
        have keyed : e₁.approvedJoinFactKey ≠ some "" := by
          rw [hfirst]
          simpa using blank
        rw [kept, Option.some_or, Option.some.injEq]
        constructor
        · intro same
          exact ⟨e₁, .along last₁ keyed, by rw [hfirst, same]⟩
        · intro h
          obtain ⟨e, answers, hkey⟩ := h
          cases answers with
          | along last _ =>
              rw [last.unique last₁, hfirst] at hkey
              exact Option.some.inj hkey
          | back none _ => exact absurd (none e₁ last₁) keyed

theorem Hop.exists_unverified {s : JoinStep} (hop : Hop (g.Reads roles) s)
    (waits : s.cleared = false) :
    ∃ e ∈ g.unverified roles, e.pair = s.pair ∨ e.pair = s.pair.swap := by
  cases hop with
  | along he => exact ⟨s, Multigraph.mem_unverified.mpr ⟨he, waits⟩, Or.inl rfl⟩
  | @back e he => exact ⟨e, Multigraph.mem_unverified.mpr ⟨he, waits⟩, Or.inr rfl⟩

theorem mem_unverifiedEndpoints {pair : String × String} :
    (((classifiedEdges g.rows roles).unverifiedFact pair).isSome = true ∨
        ((classifiedEdges g.rows roles).unverifiedFact pair.swap).isSome = true) ↔
      ∃ e ∈ g.unverified roles, e.pair = pair ∨ e.pair = pair.swap := by
  rw [unverifiedFact_isSome, unverifiedFact_isSome]
  constructor
  · intro h
    cases h with
    | inl h =>
        obtain ⟨e, he, same⟩ := h
        exact ⟨e, he, Or.inl same⟩
    | inr h =>
        obtain ⟨e, he, same⟩ := h
        exact ⟨e, he, Or.inr same⟩
  · intro h
    obtain ⟨e, he, same⟩ := h
    cases same with
    | inl same => exact Or.inl ⟨e, he, same⟩
    | inr same => exact Or.inr ⟨e, he, same⟩

end Lookup

theorem map_filter_eq_iff {α β : Type} {p q : α → Bool} {f : α → β} {l : List α}
    (sub : ∀ a ∈ l, q a = true → p a = true) :
    (l.filter p).map f = (l.filter q).map f ↔ ∀ a ∈ l, p a = true → q a = true := by
  constructor
  · intro h a ha hp
    have inner : l.filter q = (l.filter p).filter q := by
      rw [List.filter_filter]
      apply List.filter_congr
      intro a ha
      cases hq : q a with
      | false => rfl
      | true => rw [sub a ha hq, Bool.and_true]
    have lengths := congrArg List.length h
    rw [List.length_map, List.length_map, inner] at lengths
    have all := List.length_filter_eq_length_iff.mp lengths.symm
    exact all a (List.mem_filter.mpr ⟨ha, hp⟩)
  · intro h
    congr 1
    apply List.filter_congr
    intro a ha
    rw [Bool.eq_iff_iff]
    exact ⟨h a ha, sub a ha⟩

theorem mapM_eq_some_iff {α β : Type} {f : α → Option β} {l : List α} {bs : List β} :
    l.mapM f = some bs ↔ l.map f = bs.map some := by
  induction l generalizing bs with
  | nil =>
      rw [List.mapM_nil, List.map_nil]
      constructor
      · intro h
        rw [← Option.some.inj h, List.map_nil]
      · intro h
        rw [List.map_eq_nil_iff.mp h.symm]
        rfl
  | cons a l ih =>
      rw [List.mapM_cons, List.map_cons]
      cases ha : f a with
      | none =>
          constructor
          · intro h
            simp at h
          · intro h
            cases bs with
            | nil => simp at h
            | cons b bs => simp at h
      | some b =>
          cases hl : l.mapM f with
          | none =>
              have off : ∀ cs : List β, l.map f ≠ cs.map some := by
                intro cs hcs
                rw [ih.mpr hcs] at hl
                simp at hl
              constructor
              · intro h
                simp at h
              · intro h
                cases bs with
                | nil => simp at h
                | cons c bs => exact absurd (List.cons.inj h).2 (off bs)
          | some cs =>
              have rest := ih.mp hl
              constructor
              · intro h
                have eq : b :: cs = bs := by simpa using h
                rw [← eq, List.map_cons, rest]
              · intro h
                cases bs with
                | nil => simp at h
                | cons c bs =>
                    obtain ⟨hb, hbs⟩ := List.cons.inj h
                    rw [rest] at hbs
                    have same := List.map_injective_iff.mpr (Option.some_injective β) hbs
                    simp [Option.some.inj hb, same]

section Reported

variable {g : Multigraph} {roles : List String} {steps : List JoinStep}

theorem unverifiedEndpoints_iff (hops : ∀ s ∈ steps, Hop (g.Reads roles) s) :
    (classifiedEdges g.rows roles).unverifiedEndpoints steps =
        (steps.filter fun s => s.cleared = false).map (·.pair) ↔
      ∀ s ∈ steps, s.cleared = true →
        ∀ e ∈ g.unverified roles, e.pair ≠ s.pair ∧ e.pair ≠ s.pair.swap := by
  have reported : (classifiedEdges g.rows roles).unverifiedEndpoints steps =
      (steps.filter fun s =>
        decide (((classifiedEdges g.rows roles).unverifiedFact s.pair).isSome = true ∨
          ((classifiedEdges g.rows roles).unverifiedFact s.pair.swap).isSome = true)).map
        (·.pair) := by
    rw [ClassifiedEdges.unverifiedEndpoints, List.filter_map]
    rfl
  rw [reported, map_filter_eq_iff]
  · constructor
    · intro h s hs cleared e he
      constructor
      · intro same
        have waits := h s hs (decide_eq_true (mem_unverifiedEndpoints.mpr ⟨e, he, Or.inl same⟩))
        simp [cleared] at waits
      · intro same
        have waits := h s hs (decide_eq_true (mem_unverifiedEndpoints.mpr ⟨e, he, Or.inr same⟩))
        simp [cleared] at waits
    · intro h s hs looked
      obtain ⟨e, he, same⟩ := mem_unverifiedEndpoints.mp (of_decide_eq_true looked)
      apply decide_eq_true
      cases cleared : s.cleared with
      | false => rfl
      | true =>
          have off := h s hs cleared e he
          cases same with
          | inl same => exact absurd same off.1
          | inr same => exact absurd same off.2
  · intro s hs waits
    apply decide_eq_true
    exact mem_unverifiedEndpoints.mpr ((hops s hs).exists_unverified (of_decide_eq_true waits))

theorem factKeys_iff :
    (∃ factKeys, ((steps.filter fun s => s.cleared = false).map (·.pair)).mapM
          (classifiedEdges g.rows roles).factKey = some factKeys ∧
        factKeys.map some =
          (steps.filter fun s => s.cleared = false).map (·.approvedJoinFactKey)) ↔
      ∀ s ∈ steps, s.cleared = false → ∃ e, Answers (g.unverified roles) s e ∧
        e.approvedJoinFactKey = s.approvedJoinFactKey := by
  constructor
  · intro h s hs waits
    obtain ⟨factKeys, found, own⟩ := h
    rw [mapM_eq_some_iff, own, List.map_map, List.map_inj_left] at found
    have here := found s (List.mem_filter.mpr ⟨hs, decide_eq_true waits⟩)
    obtain ⟨key, hkey⟩ := exists_key_of_not_cleared waits
    rw [hkey]
    rw [hkey] at here
    exact factKey_eq_some.mp here
  · intro h
    have found : ∀ s ∈ steps.filter fun s => s.cleared = false,
        (classifiedEdges g.rows roles).factKey s.pair = s.approvedJoinFactKey := by
      intro s hs
      obtain ⟨hs, waits⟩ := List.mem_filter.mp hs
      obtain ⟨e, answers, same⟩ := h s hs (of_decide_eq_true waits)
      obtain ⟨key, hkey⟩ := exists_key_of_not_cleared (of_decide_eq_true waits)
      rw [hkey] at same ⊢
      exact factKey_eq_some.mpr ⟨e, answers, same⟩
    have keyed : ∃ factKeys : List String, factKeys.map some =
        (steps.filter fun s => s.cleared = false).map (·.approvedJoinFactKey) := by
      have all : ∀ s ∈ steps.filter fun s => s.cleared = false,
          (s.approvedJoinFactKey).isSome = true := by
        intro s hs
        obtain ⟨key, hkey⟩ :=
          exists_key_of_not_cleared (of_decide_eq_true (List.mem_filter.mp hs).2)
        rw [hkey, Option.isSome_some]
      obtain ⟨factKeys, found⟩ := exists_mapM all
      exact ⟨factKeys, (mapM_eq_some_iff.mp found).symm⟩
    obtain ⟨factKeys, own⟩ := keyed
    refine ⟨factKeys, ?_, own⟩
    rw [mapM_eq_some_iff, own, List.map_map, List.map_inj_left]
    exact found

theorem deniedEndpoints_eq (hops : ∀ s ∈ steps, Hop (· ∈ g.edges) s) :
    (classifiedEdges g.rows roles).deniedEndpoints steps =
      (steps.filter fun s => ¬ g.Visible roles s).map (·.pair) := by
  rw [ClassifiedEdges.deniedEndpoints, List.filter_map]
  have same : ∀ s ∈ steps,
      ((classifiedEdges g.rows roles).denied.any fun e =>
        (e.fromRef, e.toRef) = s.pair ∨ (e.toRef, e.fromRef) = s.pair) =
      decide (¬ g.Visible roles s) := by
    intro s hs
    rw [Bool.eq_iff_iff, List.any_eq_true, decide_eq_true_eq]
    constructor
    · intro h
      obtain ⟨e, he, same⟩ := h
      have hidden := (Multigraph.mem_denied.mp he).2
      intro shown
      apply hidden
      cases of_decide_eq_true same with
      | inl along =>
          obtain ⟨hfrom, hto⟩ := Prod.mk.inj along
          rw [Multigraph.Visible, hfrom, hto]
          exact shown
      | inr back =>
          obtain ⟨hto, hfrom⟩ := Prod.mk.inj back
          rw [Multigraph.Visible, hfrom, hto]
          exact shown.symm
    · intro hidden
      cases hops s hs with
      | along he =>
          exact ⟨s, Multigraph.mem_denied.mpr ⟨he, hidden⟩, decide_eq_true (Or.inl rfl)⟩
      | @back e he =>
          refine ⟨e, Multigraph.mem_denied.mpr ⟨he, ?_⟩, decide_eq_true (Or.inr rfl)⟩
          intro shown
          exact hidden shown.symm
  congr 1
  exact List.filter_congr same

end Reported

/-- The outcome is exact when, and only when, each hop of the unverified chain is reported for
    itself. -/
theorem join_classification_exact_iff (g : Multigraph) (roles : List String)
    (fromTable toTable : String) (distinct : fromTable ≠ toTable) :
    ExactOutcome g roles fromTable toTable (classifyJoinPath g.rows fromTable toTable roles) ↔
      Attributable g roles fromTable toTable := by
  have clearing := fun e => @Multigraph.mem_clearing g roles e
  have reads := fun e => @Multigraph.mem_authorized g roles e
  have all := fun e => @Multigraph.mem_all g roles e
  constructor
  · intro exact apart steps traversed
    have joined := traversed.joined fun e => Multigraph.mem_readable
    obtain ⟨steps', endpoints, factKeys, outcome, shortest, reported, keys⟩ :=
      exact.unverified apart joined
    have found := traversed.bfs_eq distinct
    rw [← Multigraph.authorized_rows] at found
    rw [classify_authorized distinct (bfs_of_not_joined clearing apart) found,
      Option.map_eq_some_iff] at outcome
    obtain ⟨factKeys', hkeys, same⟩ := outcome
    simp only [JoinOutcome.unverified.injEq] at same
    obtain ⟨hsteps, hendpoints, hfactKeys⟩ := same
    rw [← hsteps] at reported keys shortest
    rw [← hendpoints] at reported
    have hops := shortest.1.hops
    rw [reported] at hkeys
    have clear := (unverifiedEndpoints_iff hops).mp reported
    have own := factKeys_iff.mp ⟨factKeys', hkeys, hfactKeys ▸ keys⟩
    intro s hs
    exact ⟨clear s hs, own s hs⟩
  · intro attributable
    constructor
    · intro joined
      obtain ⟨steps, found, shortest⟩ := bfs_of_joined clearing distinct joined
      exact ⟨steps, classify_clearing distinct found, shortest⟩
    · intro apart joined
      obtain ⟨steps, found, shortest⟩ := bfs_of_joined reads distinct joined
      have traversed := traversed_of_bfs distinct found
      rw [Multigraph.authorized_rows] at traversed
      have attributed := attributable apart steps traversed
      have reported := (unverifiedEndpoints_iff shortest.1.hops).mpr
        fun s hs => (attributed s hs).clear
      obtain ⟨factKeys, hkeys, own⟩ := factKeys_iff.mpr fun s hs => (attributed s hs).own
      refine ⟨steps, _, factKeys, ?_, shortest, reported, own⟩
      rw [classify_authorized distinct (bfs_of_not_joined clearing apart) found, reported, hkeys,
        Option.map_some]
    · intro apart joined
      have unclear : ¬ Joined (g.Clears roles) fromTable toTable := by
        intro cleared
        obtain ⟨steps, chain⟩ := cleared
        exact apart ⟨steps, chain.mono fun e he => ⟨he.1, he.2.1⟩⟩
      obtain ⟨steps, found, shortest⟩ := bfs_of_joined all distinct joined
      refine ⟨steps, traversed_of_bfs distinct found, shortest, ?_⟩
      rw [classify_all distinct (bfs_of_not_joined clearing unclear)
        (bfs_of_not_joined reads apart) found, deniedEndpoints_eq shortest.1.hops]
    · intro apart
      have unread : ¬ Joined (g.Reads roles) fromTable toTable := by
        intro read
        obtain ⟨steps, chain⟩ := read
        exact apart ⟨steps, chain.mono fun e he => he.1⟩
      have unclear : ¬ Joined (g.Clears roles) fromTable toTable := by
        intro cleared
        obtain ⟨steps, chain⟩ := cleared
        exact apart ⟨steps, chain.mono fun e he => he.1⟩
      exact classify_none distinct (bfs_of_not_joined clearing unclear)
        (bfs_of_not_joined reads unread) (bfs_of_not_joined all apart)

def declaredJoin : Edge where
  fromRef := "public.txn.account"
  toRef := "public.account.id"
  cardinality := some "N:1"
  approvedJoinFactKey := none
  approvedJoinStatus := none
  authority := .operational

/-- The same join, proposed the other way. -/
def proposedBack : Edge where
  fromRef := "public.account.id"
  toRef := "public.txn.account"
  cardinality := some "1:N"
  approvedJoinFactKey := some "fact-back"
  approvedJoinStatus := some .draft
  authority := .operational

def proposedJoin : Edge where
  fromRef := "public.account.customer"
  toRef := "public.customer.id"
  cardinality := some "N:1"
  approvedJoinFactKey := some "fact-customer"
  approvedJoinStatus := some .draft
  authority := .operational

def onlyProposed : Multigraph where
  sensitivity := fun _ => none
  edges := [proposedJoin]

def sharedColumns : Multigraph where
  sensitivity := fun _ => none
  edges := [declaredJoin, proposedBack, proposedJoin]

theorem join_classification_exact_iff_proposed :
    ExactOutcome onlyProposed [] "account" "customer"
      (classifyJoinPath onlyProposed.rows "account" "customer" []) := by
  apply (join_classification_exact_iff onlyProposed [] "account" "customer" (by decide)).mpr
  intro _ steps traversed s hs
  have found : bfs (onlyProposed.readable []) "account" "customer" = some [proposedJoin] := by
    decide +kernel
  rw [traversed.bfs_eq (by decide)] at found
  rw [Option.some.inj found] at hs
  rw [List.mem_singleton.mp hs]
  constructor
  · intro cleared
    exact absurd cleared (by decide)
  · intro _
    exists proposedJoin
    constructor
    · apply Answers.along
      · exact ⟨[], [], by decide +kernel, rfl, by simp⟩
      · decide
    · rfl

/-- The declared hop is cleared, and reported as unverified: the proposal is over its columns. -/
theorem cleared_hop_reported :
    ¬ ExactOutcome sharedColumns [] "txn" "customer"
      (classifyJoinPath sharedColumns.rows "txn" "customer" []) := by
  intro exact
  have outcome : classifyJoinPath sharedColumns.rows "txn" "customer" [] =
      some (.unverified [declaredJoin, proposedJoin] [declaredJoin.pair, proposedJoin.pair]
        ["fact-back", "fact-customer"]) := by
    rfl
  have apart : ¬ Joined (sharedColumns.Clears []) "txn" "customer" := by
    intro joined
    obtain ⟨steps, found, _⟩ :=
      bfs_of_joined (fun e => @Multigraph.mem_clearing sharedColumns [] e) (by decide) joined
    have none : bfs (classifiedEdges sharedColumns.rows []).clearing "txn" "customer" = none := by
      decide +kernel
    rw [none] at found
    simp at found
  have joined : Joined (sharedColumns.Reads []) "txn" "customer" := by
    have found : bfs (sharedColumns.readable []) "txn" "customer" =
        some [declaredJoin, proposedJoin] := by
      decide +kernel
    exact (traversed_of_bfs (by decide) found).joined fun e => Multigraph.mem_readable
  obtain ⟨steps, endpoints, factKeys, said, _, reported, _⟩ := exact.unverified apart joined
  rw [outcome] at said
  simp only [Option.some.injEq, JoinOutcome.unverified.injEq] at said
  obtain ⟨hsteps, hendpoints, _⟩ := said
  rw [← hsteps, ← hendpoints] at reported
  exact absurd reported (by decide)

end FeatureGen.Overlay
