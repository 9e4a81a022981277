import Mathlib

/-! # Depth-first search for a cycle

The search in three colours with a stack of its own: an entry of the stack opens a
node or closes it, and a node may be stacked several times before it is opened.
-/

namespace Dfs

inductive Colour where
  | white
  | grey
  | black
  deriving DecidableEq

variable {V : Type} [DecidableEq V] (inputs : V → List V)

/-- Stack the white ones of some nodes. The error names the first grey one. -/
def push (colour : V → Colour) : List V → List (V × Bool) → Except V (List (V × Bool))
  | [], stack => .ok stack
  | y :: ys, stack =>
      if colour y = .grey then .error y
      else if colour y = .white then push colour ys ((y, false) :: stack)
      else push colour ys stack

/-- The colours and the stack of a search. -/
structure Search (V : Type) where
  colour : V → Colour
  stack : List (V × Bool)

/-- One round: the popped entry closes its node or opens it. -/
def advance (colour : V → Colour) (entry : V × Bool) (stack : List (V × Bool)) :
    Except V (Search V) :=
  if entry.2 then .ok ⟨Function.update colour entry.1 .black, stack⟩
  else if colour entry.1 = .grey then .ok ⟨colour, stack⟩
  else
    let opened := Function.update colour entry.1 .grey
    (push opened (inputs entry.1) ((entry.1, true) :: stack)).map (Search.mk opened)

/-- Rounds until the stack is empty. None where the fuel ran out. -/
def visit : ℕ → Search V → Option (Except V (V → Colour))
  | 0, _ => none
  | fuel + 1, s =>
      match s.stack with
      | [] => some (.ok s.colour)
      | entry :: stack =>
          match advance inputs s.colour entry stack with
          | .error y => some (.error y)
          | .ok next => visit fuel next

/-- A search from each node that is still white. -/
def walk (fuel : ℕ) : List V → (V → Colour) → Option (Except V (V → Colour))
  | [], colour => some (.ok colour)
  | start :: starts, colour =>
      if colour start = .white then
        match visit inputs fuel ⟨colour, [(start, false)]⟩ with
        | none => none
        | some (.error y) => some (.error y)
        | some (.ok colour) => walk fuel starts colour
      else walk fuel starts colour

section Cycles

omit [DecidableEq V]

/-- A path of at least one edge. -/
def Path : V → V → Prop := Relation.TransGen fun v y => y ∈ inputs v

/-- Nodes in the order they were closed, the last one first: what each one reads was
    closed before it. -/
def Ordered : List V → Prop
  | [] => True
  | v :: shut => v ∉ shut ∧ (∀ y ∈ inputs v, y ∈ shut) ∧ Ordered shut

variable {inputs}

theorem Ordered.inputs_mem {shut : List V} (h : Ordered inputs shut) {v y : V}
    (hv : v ∈ shut) (hy : y ∈ inputs v) : y ∈ shut := by
  induction shut with
  | nil => simp at hv
  | cons x shut ih =>
      cases List.mem_cons.mp hv with
      | inl eq =>
          rw [eq] at hy
          exact List.mem_cons_of_mem _ (h.2.1 y hy)
      | inr later => exact List.mem_cons_of_mem _ (ih h.2.2 later)

theorem Ordered.path_mem {shut : List V} (h : Ordered inputs shut) {v w : V}
    (hv : v ∈ shut) (path : Path inputs v w) : w ∈ shut := by
  induction path with
  | single edge => exact h.inputs_mem hv edge
  | tail _ edge ih => exact h.inputs_mem ih edge

theorem Ordered.acyclic {shut : List V} (h : Ordered inputs shut) {v : V}
    (hv : v ∈ shut) : ¬ Path inputs v v := by
  induction shut with
  | nil => simp at hv
  | cons x shut ih =>
      cases List.mem_cons.mp hv with
      | inl eq =>
          intro path
          rw [eq] at path
          -- the first edge leads into what was closed before, and no path leaves it
          obtain ⟨y, edge, rest⟩ := Relation.TransGen.head'_iff.mp path
          have hy := h.2.1 y edge
          cases Relation.reflTransGen_iff_eq_or_transGen.mp rest with
          | inl same =>
              rw [same] at h
              exact h.1 hy
          | inr rest => exact h.1 (h.2.2.path_mem hy rest)
      | inr later => exact ih h.2.2 later

end Cycles

/-- What holds between the rounds: `shut` are the nodes that have been black. -/
structure Held (colour : V → Colour) (stack : List (V × Bool)) (shut : List V) : Prop where
  ordered : Ordered inputs shut
  black : ∀ v, colour v = .black → v ∈ shut
  closed : ∀ v ∈ shut, colour v = .black ∨ stack.head? = some (v, true)
  grey : ∀ v, colour v = .grey ↔ (v, true) ∈ stack
  -- what an open node reads is closed, or is still to be done before the node is closed
  pending : ∀ before v after, stack = before ++ (v, true) :: after → ∀ y ∈ inputs v,
    y ∈ shut ∨ ∃ b, (y, b) ∈ before
  -- an open node leads to all that is stacked after it
  path : stack.Pairwise fun e g => g.2 = true → Path inputs g.1 e.1 ∧ e.1 ≠ g.1

variable {inputs}

omit [DecidableEq V] in
theorem Held.start {colour : V → Colour} {shut : List V} (h : Held inputs colour [] shut)
    (v : V) : Held inputs colour [(v, false)] shut := by
  constructor
  · exact h.ordered
  · exact h.black
  · intro w hw
    cases h.closed w hw with
    | inl black => exact Or.inl black
    | inr top => simp at top
  · intro w
    rw [h.grey w]
    simp
  · intro before w after hstack
    have := congrArg (fun l => (w, true) ∈ l) hstack
    simp at this
  · simp

theorem Held.close {colour : V → Colour} {v : V} {stack : List (V × Bool)} {shut : List V}
    (h : Held inputs colour ((v, true) :: stack) shut) :
    Held inputs (Function.update colour v .black) stack (if v ∈ shut then shut else v :: shut) := by
  have read : ∀ y ∈ inputs v, y ∈ shut := by
    intro y hy
    cases h.pending [] v stack rfl y hy with
    | inl closed => exact closed
    | inr above =>
        obtain ⟨b, hb⟩ := above
        simp at hb
  have mem : ∀ w, w ∈ (if v ∈ shut then shut else v :: shut) ↔ w = v ∨ w ∈ shut := by
    intro w
    split
    · rename_i hv
      constructor
      · exact Or.inr
      · intro hw
        cases hw with
        | inl eq =>
            rw [eq]
            exact hv
        | inr hw => exact hw
    · exact List.mem_cons
  have once : (v, true) ∉ stack := by
    intro twice
    exact ((List.pairwise_cons.mp h.path).1 _ twice rfl).2 rfl
  constructor
  · split
    · exact h.ordered
    · rename_i fresh
      exact ⟨fresh, read, h.ordered⟩
  · intro w hw
    rw [mem]
    by_cases eq : w = v
    · exact Or.inl eq
    · rw [Function.update_of_ne eq] at hw
      exact Or.inr (h.black w hw)
  · intro w hw
    left
    rw [mem] at hw
    by_cases eq : w = v
    · rw [eq, Function.update_self]
    · rw [Function.update_of_ne eq]
      cases h.closed w (hw.resolve_left eq) with
      | inl black => exact black
      | inr top =>
          simp only [List.head?_cons, Option.some.injEq, Prod.mk.injEq, and_true] at top
          exact absurd top.symm eq
  · intro w
    by_cases eq : w = v
    · rw [eq, Function.update_self]
      simp [once]
    · rw [Function.update_of_ne eq, h.grey w]
      simp [eq]
  · intro before w after hstack y hy
    rw [mem]
    have old := h.pending ((v, true) :: before) w after (by rw [hstack]; rfl) y hy
    cases old with
    | inl closed => exact Or.inl (Or.inr closed)
    | inr above =>
        obtain ⟨b, hb⟩ := above
        cases List.mem_cons.mp hb with
        | inl eq => exact Or.inl (Or.inl (congrArg Prod.fst eq))
        | inr hb => exact Or.inr ⟨b, hb⟩
  · exact (List.pairwise_cons.mp h.path).2

omit [DecidableEq V] in
theorem push_eq_ok {colour : V → Colour} {ys : List V} {stack stack' : List (V × Bool)}
    (h : push colour ys stack = .ok stack') :
    (∀ y ∈ ys, colour y ≠ .grey) ∧
      stack' = ((ys.filter (colour · = .white)).map (·, false)).reverse ++ stack := by
  induction ys generalizing stack with
  | nil =>
      simp only [push, Except.ok.injEq] at h
      simp [h]
  | cons y ys ih =>
      rw [push] at h
      split at h
      · simp at h
      · rename_i notGrey
        split at h
        · rename_i white
          obtain ⟨others, rfl⟩ := ih h
          constructor
          · simpa [notGrey] using others
          · simp [white]
        · rename_i notWhite
          obtain ⟨others, rfl⟩ := ih h
          constructor
          · simpa [notGrey] using others
          · simp [notWhite]

omit [DecidableEq V] in
theorem push_eq_error {colour : V → Colour} {ys : List V} {stack : List (V × Bool)} {y : V}
    (h : push colour ys stack = .error y) : y ∈ ys ∧ colour y = .grey := by
  induction ys generalizing stack with
  | nil => simp [push] at h
  | cons z ys ih =>
      rw [push] at h
      split at h
      · rename_i grey
        simp only [Except.error.injEq] at h
        rw [← h]
        exact ⟨List.mem_cons_self, grey⟩
      · split at h
        · exact ⟨List.mem_cons_of_mem _ (ih h).1, (ih h).2⟩
        · exact ⟨List.mem_cons_of_mem _ (ih h).1, (ih h).2⟩

omit [DecidableEq V] in
theorem exists_of_append_eq {α : Type} {l rest before after : List α} {x : α}
    (h : l ++ rest = before ++ x :: after) (hx : x ∉ l) :
    ∃ middle, before = l ++ middle ∧ rest = middle ++ x :: after := by
  cases List.append_eq_append_iff.mp h with
  | inl later =>
      obtain ⟨middle, hbefore, hrest⟩ := later
      exact ⟨middle, hbefore, hrest⟩
  | inr earlier =>
      obtain ⟨middle, hl, hrest⟩ := earlier
      cases middle with
      | nil => exact ⟨[], by simpa using hl.symm, hrest.symm⟩
      | cons top middle =>
          simp only [List.cons_append, List.cons.injEq] at hrest
          rw [hl, hrest.1] at hx
          simp at hx

omit [DecidableEq V] in
theorem Held.shut_black {colour : V → Colour} {v : V} {stack : List (V × Bool)} {shut : List V}
    (h : Held inputs colour ((v, false) :: stack) shut) {w : V} (hw : w ∈ shut) :
    colour w = .black := by
  cases h.closed w hw with
  | inl black => exact black
  | inr top => simp at top

theorem Held.reopened {colour : V → Colour} {v : V} {stack : List (V × Bool)} {shut : List V}
    (h : Held inputs colour ((v, false) :: stack) shut) (hv : v ∈ shut) :
    (inputs v).filter (Function.update colour v .grey · = .white) = [] := by
  rw [List.filter_eq_nil_iff]
  intro y hy white
  rw [decide_eq_true_eq] at white
  have black := h.shut_black (h.ordered.inputs_mem hv hy)
  by_cases self : y = v
  · rw [self, Function.update_self] at white
    simp at white
  · rw [Function.update_of_ne self, black] at white
    simp at white

theorem Held.opened {colour : V → Colour} {v : V} {stack : List (V × Bool)} {shut : List V}
    (h : Held inputs colour ((v, false) :: stack) shut) {pushed : List (V × Bool)}
    (others : ∀ y ∈ inputs v, Function.update colour v .grey y ≠ .grey)
    (hpushed : pushed = (((inputs v).filter
      (Function.update colour v .grey · = .white)).map (·, false)).reverse) :
    Held inputs (Function.update colour v .grey) (pushed ++ (v, true) :: stack) shut := by
  have mem : ∀ e, e ∈ pushed ↔
      e.2 = false ∧ e.1 ∈ inputs v ∧ Function.update colour v .grey e.1 = .white := by
    intro e
    rw [hpushed]
    simp only [List.mem_reverse, List.mem_map, List.mem_filter, decide_eq_true_eq, Prod.ext_iff]
    grind
  have noneOpen : ∀ w, (w, true) ∉ pushed := by
    intro w hw
    exact absurd ((mem _).mp hw).1 (by simp)
  have read : ∀ y ∈ inputs v, y ∈ shut ∨ ∃ b, (y, b) ∈ pushed := by
    intro y hy
    have notGrey := others y hy
    cases hcolour : Function.update colour v Colour.grey y with
    | grey => exact absurd hcolour notGrey
    | white => exact Or.inr ⟨false, (mem _).mpr ⟨rfl, hy, hcolour⟩⟩
    | black =>
        left
        by_cases self : y = v
        · rw [self, Function.update_self] at hcolour
          simp at hcolour
        · rw [Function.update_of_ne self] at hcolour
          exact h.black y hcolour
  constructor
  · exact h.ordered
  · intro w hw
    by_cases eq : w = v
    · rw [eq, Function.update_self] at hw
      simp at hw
    · rw [Function.update_of_ne eq] at hw
      exact h.black w hw
  · intro w hw
    by_cases eq : w = v
    · -- the node was closed before, so all it reads is closed and nothing is stacked
      right
      have hv : v ∈ shut := by
        rw [← eq]
        exact hw
      rw [hpushed, h.reopened hv, eq]
      rfl
    · left
      rw [Function.update_of_ne eq]
      exact h.shut_black hw
  · intro w
    by_cases eq : w = v
    · rw [eq, Function.update_self]
      simp
    · rw [Function.update_of_ne eq, h.grey w]
      simp [eq, noneOpen]
  · intro before w after hstack y hy
    obtain ⟨middle, rfl, hrest⟩ := exists_of_append_eq hstack (noneOpen w)
    cases middle with
    | nil =>
        simp only [List.nil_append, List.cons.injEq, Prod.mk.injEq, and_true] at hrest
        rw [← hrest.1] at hy
        rw [List.append_nil]
        exact read y hy
    | cons top middle =>
        simp only [List.cons_append, List.cons.injEq] at hrest
        have old := h.pending ((v, false) :: middle) w after (by rw [hrest.2]; rfl) y hy
        cases old with
        | inl closed => exact Or.inl closed
        | inr above =>
            right
            obtain ⟨b, hb⟩ := above
            cases List.mem_cons.mp hb with
            | inl eq =>
                have same : y = v := congrArg Prod.fst eq
                exists true
                rw [same, ← hrest.1]
                simp
            | inr hb =>
                exists b
                simp [hb]
  · have old := List.pairwise_cons.mp h.path
    have below : ∀ g ∈ stack, g.2 = true → Path inputs g.1 v ∧ v ≠ g.1 := by
      intro g hg open'
      exact old.1 g hg open'
    rw [List.pairwise_append]
    constructor
    · apply List.pairwise_of_forall_mem_list
      intro e _ g hg open'
      rw [((mem g).mp hg).1] at open'
      simp at open'
    · constructor
      · exact List.pairwise_cons.mpr ⟨below, old.2⟩
      · intro e he g hg open'
        have spec := (mem e).mp he
        cases List.mem_cons.mp hg with
        | inl eq =>
            rw [eq]
            constructor
            · exact .single spec.2.1
            · intro self
              rw [self, Function.update_self] at spec
              simp at spec
        | inr hg =>
            constructor
            · exact (below g hg open').1.tail spec.2.1
            · intro same
              have grey : colour g.1 = .grey := by
                rw [h.grey]
                have : g = (g.1, true) := by rw [← open']
                rw [← this]
                exact List.mem_cons_of_mem _ hg
              have ne : g.1 ≠ v := fun eq => (below g hg open').2 eq.symm
              rw [same, Function.update_of_ne ne, grey] at spec
              simp at spec

omit [DecidableEq V] in
theorem Held.not_grey {colour : V → Colour} {v : V} {stack : List (V × Bool)} {shut : List V}
    (h : Held inputs colour ((v, false) :: stack) shut) : colour v ≠ .grey := by
  intro grey
  have inStack := (h.grey v).mp grey
  cases List.mem_cons.mp inStack with
  | inl eq => simp at eq
  | inr below => exact ((List.pairwise_cons.mp h.path).1 _ below rfl).2 rfl

theorem Held.cycle {colour : V → Colour} {v y : V} {stack : List (V × Bool)} {shut : List V}
    (h : Held inputs colour ((v, false) :: stack) shut) (hy : y ∈ inputs v)
    (grey : Function.update colour v .grey y = .grey) : Path inputs y y := by
  by_cases self : y = v
  · rw [← self] at hy
    exact .single hy
  · rw [Function.update_of_ne self] at grey
    cases List.mem_cons.mp ((h.grey y).mp grey) with
    | inl eq => simp at eq
    | inr below =>
        have path := ((List.pairwise_cons.mp h.path).1 _ below rfl).1
        exact path.tail hy

/-- What a search still has to do: an entry closes its node, or opens it and closes it,
    and opening a white node stacks its inputs. -/
def cost (inputs : V → List V) (nodes : List V) (colour : V → Colour)
    (stack : List (V × Bool)) : ℕ :=
  (stack.map fun e => if e.2 then 1 else 2).sum
    + (nodes.map fun v => if colour v = .white then 2 * (inputs v).length else 0).sum

omit [DecidableEq V] in
theorem white_cost_le (f : V → ℕ) (nodes : List V) {colour colour' : V → Colour}
    (h : ∀ w, colour' w = .white → colour w = .white) :
    (nodes.map fun w => if colour' w = .white then f w else 0).sum
      ≤ (nodes.map fun w => if colour w = .white then f w else 0).sum := by
  apply List.sum_le_sum
  intro w _
  by_cases white : colour' w = .white
  · rw [if_pos white, if_pos (h w white)]
  · rw [if_neg white]
    exact Nat.zero_le _

theorem white_of_update {colour : V → Colour} {v w : V} {c : Colour} (hc : c ≠ .white)
    (hw : Function.update colour v c w = .white) : colour w = .white := by
  by_cases eq : w = v
  · rw [eq, Function.update_self] at hw
    exact absurd hw hc
  · rwa [Function.update_of_ne eq] at hw

theorem white_cost_open (f : V → ℕ) {nodes : List V} {colour : V → Colour} {v : V}
    (hv : v ∈ nodes) (white : colour v = .white) :
    (nodes.map fun w => if Function.update colour v .grey w = .white then f w else 0).sum + f v
      ≤ (nodes.map fun w => if colour w = .white then f w else 0).sum := by
  have still : ∀ w, Function.update colour v Colour.grey w = .white → colour w = .white := by
    intro w hw
    exact white_of_update (by simp) hw
  induction nodes with
  | nil => simp at hv
  | cons x nodes ih =>
      rw [List.map_cons, List.map_cons, List.sum_cons, List.sum_cons]
      by_cases eq : x = v
      · have rest := white_cost_le f nodes still
        rw [eq, Function.update_self, if_neg (by simp), if_pos white]
        omega
      · have rest := ih (List.mem_of_ne_of_mem (Ne.symm eq) hv)
        rw [Function.update_of_ne eq]
        omega

omit [DecidableEq V] in
theorem sum_entries (ys : List V) (stack : List (V × Bool)) :
    (((ys.map (·, false)).reverse ++ stack).map fun e => if e.2 then 1 else 2).sum
      = 2 * ys.length + (stack.map fun e => if e.2 then 1 else 2).sum := by
  have twos : ((ys.map (·, false)).map fun e : V × Bool => if e.2 then 1 else 2).sum
      = 2 * ys.length := by
    induction ys with
    | nil => rfl
    | cons y ys ih =>
        rw [List.map_cons, List.map_cons, List.sum_cons, ih, List.length_cons]
        simp only [Bool.false_eq_true, if_false]
        omega
  rw [List.map_append, List.sum_append, List.map_reverse, List.sum_reverse, twos]

/-- What one round keeps and what it has done after it. -/
structure Round (inputs : V → List V) (nodes : List V) (colour : V → Colour) (entry : V × Bool)
    (stack : List (V × Bool)) (shut : List V) (next : Search V) (shut' : List V) : Prop where
  held : Held inputs next.colour next.stack shut'
  grows : shut ⊆ shut'
  entry_kept : entry.1 ∈ shut' ∨ ∃ b, (entry.1, b) ∈ next.stack
  stack_kept : stack ⊆ next.stack
  inside : ∀ e ∈ next.stack, e.1 ∈ nodes
  cheaper : cost inputs nodes next.colour next.stack < cost inputs nodes colour (entry :: stack)

theorem exists_round {nodes : List V} (closed : ∀ v ∈ nodes, ∀ y ∈ inputs v, y ∈ nodes)
    {colour : V → Colour} {entry : V × Bool} {stack : List (V × Bool)} {shut : List V}
    {next : Search V} (h : Held inputs colour (entry :: stack) shut)
    (inside : ∀ e ∈ entry :: stack, e.1 ∈ nodes)
    (run : advance inputs colour entry stack = .ok next) :
    ∃ shut', Round inputs nodes colour entry stack shut next shut' := by
  obtain ⟨v, leaving⟩ := entry
  have hv : v ∈ nodes := inside (v, leaving) List.mem_cons_self
  have below : ∀ e ∈ stack, e.1 ∈ nodes := fun e he => inside e (List.mem_cons_of_mem _ he)
  cases leaving with
  | true =>
      simp only [advance, if_true, Except.ok.injEq] at run
      subst run
      exists if v ∈ shut then shut else v :: shut
      constructor
      · exact h.close
      · split
        · exact List.Subset.refl _
        · exact List.subset_cons_self _ _
      · left
        split
        · assumption
        · exact List.mem_cons_self
      · exact List.Subset.refl _
      · exact below
      · have still : ∀ w, Function.update colour v Colour.black w = .white → colour w = .white := by
          intro w hw
          exact white_of_update (by simp) hw
        have le := white_cost_le (fun w => 2 * (inputs w).length) nodes still
        simp only [cost, List.map_cons, List.sum_cons, if_true]
        omega
  | false =>
      simp only [advance, Bool.false_eq_true, if_false, h.not_grey] at run
      cases hpush : push (Function.update colour v .grey) (inputs v) ((v, true) :: stack) with
      | error y =>
          rw [hpush] at run
          simp [Except.map] at run
      | ok stack' =>
          rw [hpush] at run
          simp only [Except.map, Except.ok.injEq] at run
          obtain ⟨others, hstack⟩ := push_eq_ok hpush
          subst run
          exists shut
          constructor
          · dsimp only
            rw [hstack]
            exact h.opened others rfl
          · exact List.Subset.refl _
          · right
            exists true
            simp [hstack]
          · intro e he
            simp [hstack, he]
          · intro e he
            simp only [hstack, List.mem_append, List.mem_reverse, List.mem_map, List.mem_filter,
              List.mem_cons] at he
            rcases he with ⟨y, hy, rfl⟩ | rfl | he
            · exact closed v hv y hy.1
            · exact hv
            · exact below e he
          · simp only [cost]
            rw [hstack, sum_entries, List.map_cons, List.map_cons, List.sum_cons, List.sum_cons,
              if_pos rfl, if_neg (by simp)]
            cases hcolour : colour v with
            | grey => exact absurd hcolour h.not_grey
            | white =>
                have paid := white_cost_open (fun w => 2 * (inputs w).length) hv hcolour
                have few := List.length_filter_le
                  (fun y => decide (Function.update colour v .grey y = .white)) (inputs v)
                omega
            | black =>
                have still : ∀ w, Function.update colour v Colour.grey w = .white →
                    colour w = .white := by
                  intro w hw
                  exact white_of_update (by simp) hw
                have le := white_cost_le (fun w => 2 * (inputs w).length) nodes still
                rw [h.reopened (h.black v hcolour), List.length_nil]
                omega

theorem cycle_of_advance {colour : V → Colour} {entry : V × Bool} {stack : List (V × Bool)}
    {shut : List V} {y : V} (h : Held inputs colour (entry :: stack) shut)
    (run : advance inputs colour entry stack = .error y) :
    Path inputs y y ∧ y ∈ inputs entry.1 := by
  obtain ⟨v, leaving⟩ := entry
  cases leaving with
  | true => simp [advance] at run
  | false =>
      simp only [advance, Bool.false_eq_true, if_false, h.not_grey] at run
      cases hpush : push (Function.update colour v .grey) (inputs v) ((v, true) :: stack) with
      | ok stack' =>
          rw [hpush] at run
          simp [Except.map] at run
      | error z =>
          rw [hpush] at run
          simp only [Except.map, Except.error.injEq] at run
          rw [← run]
          obtain ⟨hz, grey⟩ := push_eq_error hpush
          exact ⟨h.cycle hz grey, hz⟩

variable {nodes : List V} (closed : ∀ v ∈ nodes, ∀ y ∈ inputs v, y ∈ nodes)

include closed in
theorem visit_isSome {fuel : ℕ} {s : Search V} {shut : List V}
    (h : Held inputs s.colour s.stack shut) (inside : ∀ e ∈ s.stack, e.1 ∈ nodes)
    (enough : cost inputs nodes s.colour s.stack < fuel) : (visit inputs fuel s).isSome := by
  induction fuel generalizing s shut with
  | zero => omega
  | succ fuel ih =>
      rw [visit]
      cases hstack : s.stack with
      | nil => rfl
      | cons entry stack =>
          rw [hstack] at h inside enough
          dsimp only
          cases run : advance inputs s.colour entry stack with
          | error y => rfl
          | ok next =>
              obtain ⟨shut', round⟩ := exists_round closed h inside run
              have cheaper := round.cheaper
              exact ih round.held round.inside (by omega)

include closed in
theorem held_of_visit {fuel : ℕ} {s : Search V} {shut : List V} {colour : V → Colour}
    (h : Held inputs s.colour s.stack shut) (inside : ∀ e ∈ s.stack, e.1 ∈ nodes)
    (run : visit inputs fuel s = some (.ok colour)) :
    ∃ shut', Held inputs colour [] shut' ∧ shut ⊆ shut' ∧ ∀ e ∈ s.stack, e.1 ∈ shut' := by
  induction fuel generalizing s shut with
  | zero => simp [visit] at run
  | succ fuel ih =>
      rw [visit] at run
      cases hstack : s.stack with
      | nil =>
          rw [hstack] at run h
          simp only [Option.some.injEq, Except.ok.injEq] at run
          rw [run] at h
          exact ⟨shut, h, List.Subset.refl _, by simp⟩
      | cons entry stack =>
          rw [hstack] at h inside run
          dsimp only at run
          cases next : advance inputs s.colour entry stack with
          | error y =>
              rw [next] at run
              simp at run
          | ok s' =>
              rw [next] at run
              obtain ⟨shut', round⟩ := exists_round closed h inside next
              obtain ⟨shut'', held, grows, all⟩ := ih round.held round.inside run
              refine ⟨shut'', held, fun v hv => grows (round.grows hv), ?_⟩
              intro e he
              cases List.mem_cons.mp he with
              | inl eq =>
                  rw [eq]
                  cases round.entry_kept with
                  | inl hv => exact grows hv
                  | inr kept =>
                      obtain ⟨b, hb⟩ := kept
                      have opened := all (entry.1, b) hb
                      exact opened
              | inr he => exact all e (round.stack_kept he)

include closed in
theorem cycle_of_visit {fuel : ℕ} {s : Search V} {shut : List V} {y : V}
    (h : Held inputs s.colour s.stack shut) (inside : ∀ e ∈ s.stack, e.1 ∈ nodes)
    (run : visit inputs fuel s = some (.error y)) : Path inputs y y ∧ y ∈ nodes := by
  induction fuel generalizing s shut with
  | zero => simp [visit] at run
  | succ fuel ih =>
      rw [visit] at run
      cases hstack : s.stack with
      | nil =>
          rw [hstack] at run
          simp at run
      | cons entry stack =>
          rw [hstack] at h inside run
          dsimp only at run
          cases next : advance inputs s.colour entry stack with
          | error z =>
              rw [next] at run
              simp only [Option.some.injEq, Except.error.injEq] at run
              rw [← run]
              obtain ⟨path, read⟩ := cycle_of_advance h next
              exact ⟨path, closed _ (inside entry List.mem_cons_self) z read⟩
          | ok s' =>
              rw [next] at run
              obtain ⟨shut', round⟩ := exists_round closed h inside next
              exact ih round.held round.inside run

def fuelFor (inputs : V → List V) (nodes : List V) : ℕ :=
  (nodes.map fun v => 2 * (inputs v).length).sum + 3

omit [DecidableEq V] in
theorem cost_start (colour : V → Colour) (v : V) :
    cost inputs nodes colour [(v, false)] < fuelFor inputs nodes := by
  have le : (nodes.map fun v => if colour v = .white then 2 * (inputs v).length else 0).sum
      ≤ (nodes.map fun v => 2 * (inputs v).length).sum := by
    apply List.sum_le_sum
    intro w _
    split
    · exact le_refl _
    · exact Nat.zero_le _
  simp only [cost, fuelFor, List.map_cons, List.map_nil, List.sum_cons, List.sum_nil,
    Bool.false_eq_true, if_false]
  omega

include closed in
theorem walk_cases {starts : List V} (sub : starts ⊆ nodes) {colour : V → Colour}
    {shut : List V} (h : Held inputs colour [] shut) :
    (∃ colour' shut', walk inputs (fuelFor inputs nodes) starts colour = some (.ok colour') ∧
        Held inputs colour' [] shut' ∧ shut ⊆ shut' ∧ starts ⊆ shut') ∨
      ∃ y ∈ nodes, Path inputs y y ∧
        walk inputs (fuelFor inputs nodes) starts colour = some (.error y) := by
  induction starts generalizing colour shut with
  | nil => exact Or.inl ⟨colour, shut, rfl, h, List.Subset.refl _, List.nil_subset _⟩
  | cons v starts ih =>
      have hv : v ∈ nodes := sub List.mem_cons_self
      have later : starts ⊆ nodes := fun w hw => sub (List.mem_cons_of_mem _ hw)
      -- the rest of the walk, once `v` is closed
      have onward : ∀ colour₁ shut₁, Held inputs colour₁ [] shut₁ → shut ⊆ shut₁ → v ∈ shut₁ →
          walk inputs (fuelFor inputs nodes) (v :: starts) colour
            = walk inputs (fuelFor inputs nodes) starts colour₁ →
          (∃ colour' shut',
            walk inputs (fuelFor inputs nodes) (v :: starts) colour = some (.ok colour') ∧
              Held inputs colour' [] shut' ∧ shut ⊆ shut' ∧ v :: starts ⊆ shut') ∨
            ∃ y ∈ nodes, Path inputs y y ∧
              walk inputs (fuelFor inputs nodes) (v :: starts) colour = some (.error y) := by
        intro colour₁ shut₁ held grows hshut step
        rw [step]
        cases ih later held with
        | inl fine =>
            obtain ⟨colour', shut', run, held', grows', all⟩ := fine
            exact Or.inl ⟨colour', shut', run, held', fun w hw => grows' (grows hw),
              List.cons_subset.mpr ⟨grows' hshut, all⟩⟩
        | inr cycle => exact Or.inr cycle
      by_cases white : colour v = .white
      · let s : Search V := ⟨colour, [(v, false)]⟩
        have start : Held inputs s.colour s.stack shut := h.start v
        have inside : ∀ e ∈ s.stack, e.1 ∈ nodes := by
          intro e he
          rw [List.mem_singleton.mp he]
          exact hv
        have total := visit_isSome closed start inside (cost_start colour v)
        obtain ⟨answer, run⟩ := Option.isSome_iff_exists.mp total
        cases answer with
        | error y =>
            right
            obtain ⟨path, hy⟩ := cycle_of_visit closed start inside run
            refine ⟨y, hy, path, ?_⟩
            rw [walk, if_pos white, run]
        | ok colour₁ =>
            obtain ⟨shut₁, held, grows, all⟩ := held_of_visit closed start inside run
            apply onward colour₁ shut₁ held grows (all _ List.mem_cons_self)
            rw [walk, if_pos white, run]
      · have hshut : v ∈ shut := by
          cases hcolour : colour v with
          | white => exact absurd hcolour white
          | grey => simpa using (h.grey v).mp hcolour
          | black => exact h.black v hcolour
        apply onward colour shut h (List.Subset.refl _) hshut
        rw [walk, if_neg white]

omit [DecidableEq V] in
theorem held_nil : Held inputs (fun _ => Colour.white) [] [] := by
  constructor
  · trivial
  · intro v hv
    simp at hv
  · intro v hv
    simp at hv
  · intro v
    simp
  · intro before v after hstack
    simp at hstack
  · exact List.Pairwise.nil

include closed in
theorem walk_exact :
    ((∀ v ∈ nodes, ¬ Path inputs v v) ∧
        ∃ colour, walk inputs (fuelFor inputs nodes) nodes (fun _ => .white) = some (.ok colour)) ∨
      ((∃ v ∈ nodes, Path inputs v v) ∧
        ∃ y, walk inputs (fuelFor inputs nodes) nodes (fun _ => .white) = some (.error y)) := by
  cases walk_cases closed (List.Subset.refl nodes) held_nil with
  | inl fine =>
      obtain ⟨colour, shut, run, held, _, all⟩ := fine
      exact Or.inl ⟨fun v hv => held.ordered.acyclic (all hv), colour, run⟩
  | inr cycle =>
      obtain ⟨y, hy, path, run⟩ := cycle
      exact Or.inr ⟨⟨y, hy, path⟩, y, run⟩

section Collect

variable (inputs)

/-- Pop a node; one that was not seen is seen now and its inputs are stacked. None where
    the fuel ran out. -/
def collect : ℕ → List V → List V → Option (List V)
  | 0, _, _ => none
  | _ + 1, seen, [] => some seen
  | fuel + 1, seen, v :: stack =>
      if seen.contains v then collect fuel seen stack
      else collect fuel (v :: seen) ((inputs v).reverse ++ stack)

variable {inputs}

theorem collect_isSome {fuel : ℕ} {seen stack : List V} (inside : stack ⊆ nodes)
    (closed : ∀ v ∈ nodes, ∀ y ∈ inputs v, y ∈ nodes)
    (enough : stack.length + (nodes.map fun v =>
      if seen.contains v then 0 else (inputs v).length).sum < fuel) :
    (collect inputs fuel seen stack).isSome := by
  induction fuel generalizing seen stack with
  | zero => omega
  | succ fuel ih =>
      cases stack with
      | nil => rfl
      | cons v stack =>
          have below : stack ⊆ nodes := fun w hw => inside (List.mem_cons_of_mem _ hw)
          rw [collect]
          split
          · apply ih below
            rw [List.length_cons] at enough
            omega
          · rename_i fresh
            have hv : v ∈ nodes := inside List.mem_cons_self
            apply ih
            · intro w hw
              cases List.mem_append.mp hw with
              | inl hw => exact closed v hv w (List.mem_reverse.mp hw)
              | inr hw => exact below hw
            · have paid : (nodes.map fun w =>
                  if (v :: seen).contains w then 0 else (inputs w).length).sum + (inputs v).length
                    ≤ (nodes.map fun w =>
                      if seen.contains w then 0 else (inputs w).length).sum := by
                let colour (l : List V) (w : V) : Colour := if l.contains w then .grey else .white
                have white : colour seen v = .white := if_neg fresh
                have open' := white_cost_open (fun w => (inputs w).length) hv white
                have same : ∀ w,
                    Function.update (colour seen) v Colour.grey w = colour (v :: seen) w := by
                  intro w
                  by_cases eq : w = v
                  · rw [eq, Function.update_self]
                    simp [colour]
                  · rw [Function.update_of_ne eq]
                    simp [colour, eq]
                have read : ∀ (l : List V) w, (if colour l w = .white then (inputs w).length else 0)
                    = if l.contains w then 0 else (inputs w).length := by
                  intro l w
                  by_cases hw : l.contains w
                  · simp only [colour, if_pos hw]
                    rfl
                  · simp only [colour, if_neg hw]
                    rfl
                simp only [same, read] at open'
                exact open'
              rw [List.length_cons] at enough
              rw [List.length_append, List.length_reverse]
              omega

omit [DecidableEq V] in
theorem leave_seen {seen stack : List V} (h : ∀ v ∈ seen, ∀ y ∈ inputs v, y ∈ seen ∨ y ∈ stack)
    {a b : V} (ha : a ∈ seen) (path : Relation.ReflTransGen (fun v y => y ∈ inputs v) a b) :
    b ∈ seen ∨ ∃ x ∈ stack, Relation.ReflTransGen (fun v y => y ∈ inputs v) x b := by
  induction path with
  | refl => exact Or.inl ha
  | tail _ edge ih =>
      cases ih with
      | inl inSeen =>
          cases h _ inSeen _ edge with
          | inl hy => exact Or.inl hy
          | inr hy => exact Or.inr ⟨_, hy, .refl⟩
      | inr stacked =>
          obtain ⟨x, hx, path⟩ := stacked
          exact Or.inr ⟨x, hx, path.tail edge⟩

theorem mem_collect {fuel : ℕ} {seen stack result : List V}
    (h : ∀ v ∈ seen, ∀ y ∈ inputs v, y ∈ seen ∨ y ∈ stack)
    (run : collect inputs fuel seen stack = some result) {w : V} :
    w ∈ result ↔ w ∈ seen ∨ ∃ v ∈ stack, Relation.ReflTransGen (fun v y => y ∈ inputs v) v w := by
  induction fuel generalizing seen stack with
  | zero => simp [collect] at run
  | succ fuel ih =>
      cases stack with
      | nil =>
          simp only [collect, Option.some.injEq] at run
          simp [run]
      | cons v stack =>
          rw [collect] at run
          split at run
          · rename_i old
            have hv : v ∈ seen := by simpa using old
            have h' : ∀ v ∈ seen, ∀ y ∈ inputs v, y ∈ seen ∨ y ∈ stack := by
              intro a ha y hy
              cases h a ha y hy with
              | inl inSeen => exact Or.inl inSeen
              | inr stacked =>
                  cases List.mem_cons.mp stacked with
                  | inl eq =>
                      rw [eq]
                      exact Or.inl hv
                  | inr below => exact Or.inr below
            rw [ih h' run]
            constructor
            · intro hw
              cases hw with
              | inl hw => exact Or.inl hw
              | inr hw =>
                  obtain ⟨x, hx, path⟩ := hw
                  exact Or.inr ⟨x, List.mem_cons_of_mem _ hx, path⟩
            · intro hw
              cases hw with
              | inl hw => exact Or.inl hw
              | inr hw =>
                  obtain ⟨x, hx, path⟩ := hw
                  cases List.mem_cons.mp hx with
                  | inl eq =>
                      rw [eq] at path
                      exact leave_seen h' hv path
                  | inr below => exact Or.inr ⟨x, below, path⟩
          · have h' : ∀ a ∈ v :: seen, ∀ y ∈ inputs a,
                y ∈ v :: seen ∨ y ∈ (inputs v).reverse ++ stack := by
              intro a ha y hy
              cases List.mem_cons.mp ha with
              | inl eq =>
                  rw [eq] at hy
                  exact Or.inr (List.mem_append_left _ (List.mem_reverse.mpr hy))
              | inr ha =>
                  cases h a ha y hy with
                  | inl inSeen => exact Or.inl (List.mem_cons_of_mem _ inSeen)
                  | inr stacked =>
                      cases List.mem_cons.mp stacked with
                      | inl eq =>
                          rw [eq]
                          exact Or.inl List.mem_cons_self
                      | inr below => exact Or.inr (List.mem_append_right _ below)
            rw [ih h' run]
            constructor
            · intro hw
              cases hw with
              | inl hw =>
                  cases List.mem_cons.mp hw with
                  | inl eq =>
                      rw [eq]
                      exact Or.inr ⟨v, List.mem_cons_self, .refl⟩
                  | inr hw => exact Or.inl hw
              | inr hw =>
                  obtain ⟨x, hx, path⟩ := hw
                  right
                  cases List.mem_append.mp hx with
                  | inl input =>
                      exact ⟨v, List.mem_cons_self, path.head (List.mem_reverse.mp input)⟩
                  | inr below => exact ⟨x, List.mem_cons_of_mem _ below, path⟩
            · intro hw
              cases hw with
              | inl hw => exact Or.inl (List.mem_cons_of_mem _ hw)
              | inr hw =>
                  obtain ⟨x, hx, path⟩ := hw
                  cases List.mem_cons.mp hx with
                  | inl eq =>
                      rw [eq] at path
                      exact leave_seen h' List.mem_cons_self path
                  | inr below => exact Or.inr ⟨x, List.mem_append_right _ below, path⟩

end Collect

end Dfs
