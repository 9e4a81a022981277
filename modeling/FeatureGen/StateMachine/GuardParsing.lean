import Mathlib
import FeatureGen.StateMachine.GuardGrammar

/-! # The parser of guard expressions

The recursive descent reads what the grammar derives, it reads all of it, and its
fuel suffices. From there the printed form of a tree is read back.
-/

namespace FeatureGen.GuardExpr

open Overlay (isSpace)
open Descent (Reading andThen loop)

/-- What a reader answers derives from the phrase, over the tokens it took. -/
def Sound (reader : List String → Reading GuardExprError String Node) (p : Phrase) : Prop :=
  ∀ ts a rest, (∀ t ∈ ts, IsToken t) → reader ts = some (.ok (a, rest)) →
    ∃ used, ts = used ++ rest ∧ Derives p used a

theorem loop_sound {op : String} {build : Node → Node → Node} {p : Phrase} {tail : Node → Phrase}
    {reader : List String → Reading GuardExprError String Node} (hreader : Sound reader p)
    (nil : ∀ a, Derives (tail a) [] a)
    (cons : ∀ ts more a b n, Derives p ts b → Derives (tail (build a b)) more n →
      Derives (tail a) (op :: (ts ++ more)) n)
    {fuel : ℕ} {left final : Node} {tokens rest : List String} (all : ∀ t ∈ tokens, IsToken t)
    (run : loop op build reader fuel left tokens = some (.ok (final, rest))) :
    ∃ used, tokens = used ++ rest ∧ Derives (tail left) used final := by
  -- what is read so far turns a derivation of the remaining rounds into one of all of them
  let I (a : Node) (ts : List String) : Prop :=
    ∃ used, tokens = used ++ ts ∧
      ∀ more n, Derives (tail a) more n → Derives (tail left) (used ++ more) n
  have start : I left tokens := ⟨[], rfl, fun more n h => h⟩
  have round : ∀ a ts b after, I a (op :: ts) → reader ts = some (.ok (b, after)) →
      I (build a b) after := by
    intro a ts b after before read
    obtain ⟨used, htokens, extend⟩ := before
    have tokens' : ∀ t ∈ ts, IsToken t := by
      intro t ht
      apply all
      rw [htokens]
      simp [ht]
    obtain ⟨taken, hts, derived⟩ := hreader ts b after tokens' read
    refine ⟨used ++ op :: taken, by rw [htokens, hts]; simp, ?_⟩
    intro more n hmore
    have whole := extend _ n (cons taken more a b n derived hmore)
    simpa using whole
  obtain ⟨used, htokens, extend⟩ := Descent.loop_invariant round start run
  refine ⟨used, htokens, ?_⟩
  have whole := extend [] final (nil final)
  simpa using whole

theorem operand_loop_sound (tail : Node → Phrase) {op : String} {build : Node → Node → Node}
    {p q : Phrase} {reader : List String → Reading GuardExprError String Node}
    (hreader : Sound reader p) (nil : ∀ a, Derives (tail a) [] a)
    (cons : ∀ ts more a b n, Derives p ts b → Derives (tail (build a b)) more n →
      Derives (tail a) (op :: (ts ++ more)) n)
    (whole : ∀ ts more a n, Derives p ts a → Derives (tail a) more n → Derives q (ts ++ more) n)
    (fuel : ℕ) :
    Sound (fun tokens => andThen (reader tokens) fun node rest =>
      loop op build reader fuel node rest) q := by
  intro ts n rest all run
  obtain ⟨a, after, read, run⟩ := Descent.andThen_eq_ok.mp run
  obtain ⟨used, hts, derived⟩ := hreader ts a after all read
  have all' : ∀ t ∈ after, IsToken t := by
    intro t ht
    apply all
    rw [hts]
    simp [ht]
  obtain ⟨taken, hafter, derivedTail⟩ := loop_sound hreader nil cons all' run
  refine ⟨used ++ taken, by rw [hts, hafter, List.append_assoc], ?_⟩
  exact whole used taken a n derived derivedTail

theorem isName_of_isToken {token : String} (h : IsToken token) (notOpen : token ≠ "(")
    (other : (keywords.contains token || token == ")") = false) : IsName token := by
  rw [Bool.or_eq_false_iff, beq_eq_false_iff_ne] at other
  refine ⟨(h.resolve_left notOpen).resolve_left other.2, ?_⟩
  simpa using other.1

/-- The four readers on one amount of fuel. -/
structure SoundAt (fuel : ℕ) : Prop where
  orExpr : Sound (Parser.orExpr fuel) .expr
  andExpr : Sound (Parser.andExpr fuel) .and
  notExpr : Sound (Parser.notExpr fuel) .not
  atom : Sound (Parser.atom fuel) .not

theorem soundAt (fuel : ℕ) : SoundAt fuel := by
  induction fuel with
  | zero =>
      constructor
      · intro ts a rest _ run
        simp [Parser.orExpr] at run
      · intro ts a rest _ run
        simp [Parser.andExpr] at run
      · intro ts a rest _ run
        simp [Parser.notExpr] at run
      · intro ts a rest _ run
        simp [Parser.atom] at run
  | succ fuel ih =>
      constructor
      · intro ts a rest all run
        rw [Parser.orExpr] at run
        exact operand_loop_sound .ors ih.andExpr (fun _ => .orsNil)
          (fun _ _ _ _ _ => .orsCons) (fun _ _ _ _ => .expr) fuel ts a rest all run
      · intro ts a rest all run
        rw [Parser.andExpr] at run
        exact operand_loop_sound .ands ih.notExpr (fun _ => .andsNil)
          (fun _ _ _ _ _ => .andsCons) (fun _ _ _ _ => .and) fuel ts a rest all run
      · intro ts a rest all run
        rw [Parser.notExpr] at run
        split at run
        · rename_i atNot
          cases ts with
          | nil => simp at atNot
          | cons token ts =>
              simp only [List.head?_cons, Option.some.injEq] at atNot
              obtain ⟨operand, after, read, run⟩ := Descent.andThen_eq_ok.mp run
              simp only [Option.some.injEq, Except.ok.injEq, Prod.mk.injEq] at run
              have all' : ∀ t ∈ ts, IsToken t := fun t ht => all t (by simp [ht])
              obtain ⟨used, hts, derived⟩ := ih.notExpr _ _ _ all' read
              refine ⟨"NOT" :: used, by rw [atNot, hts, run.2]; rfl, ?_⟩
              rw [← run.1]
              exact .not derived
        · exact ih.atom ts a rest all run
      · intro ts a rest all run
        cases ts with
        | nil => simp [Parser.atom] at run
        | cons token ts =>
            rw [Parser.atom] at run
            split at run
            · rename_i atOpen
              obtain ⟨node, after, read, run⟩ := Descent.andThen_eq_ok.mp run
              split at run
              · rename_i atClose
                simp only [Option.some.injEq, Except.ok.injEq, Prod.mk.injEq] at run
                have all' : ∀ t ∈ ts, IsToken t := fun t ht => all t (by simp [ht])
                obtain ⟨used, hts, derived⟩ := ih.orExpr _ _ _ all' read
                have close : after = ")" :: rest := by
                  rw [← run.2]
                  exact (List.cons_head?_tail atClose).symm
                refine ⟨"(" :: (used ++ [")"]), by rw [atOpen, hts, close]; simp, ?_⟩
                rw [← run.1]
                exact .group derived
              · simp at run
            · split at run
              · simp at run
              · rename_i notOpen other
                simp only [Option.some.injEq, Except.ok.injEq, Prod.mk.injEq] at run
                refine ⟨[token], by rw [run.2]; rfl, ?_⟩
                rw [← run.1]
                exact .name (isName_of_isToken (all token (by simp)) notOpen (by simpa using other))

/-- How a phrase over the tokens `ts` with the tree `a` is read, whatever follows it
    that does not continue it. -/
def Read : Phrase → List String → Node → Prop
  | .expr, ts, a => ∀ fuel rest, 4 * ts.length + 4 ≤ fuel → rest.head? ≠ some "AND" →
      rest.head? ≠ some "OR" → Parser.orExpr fuel (ts ++ rest) = some (.ok (a, rest))
  | .and, ts, a => ∀ fuel rest, 4 * ts.length + 3 ≤ fuel → rest.head? ≠ some "AND" →
      Parser.andExpr fuel (ts ++ rest) = some (.ok (a, rest))
  | .not, ts, a => ∀ fuel rest, 4 * ts.length + 2 ≤ fuel →
      Parser.notExpr fuel (ts ++ rest) = some (.ok (a, rest))
  | .ors left, ts, a => ∀ depth fuel rest, 4 * ts.length ≤ depth → ts.length < fuel →
      rest.head? ≠ some "AND" → rest.head? ≠ some "OR" →
      loop "OR" .or (Parser.andExpr depth) fuel left (ts ++ rest) = some (.ok (a, rest))
  | .ands left, ts, a => ∀ depth fuel rest, 4 * ts.length ≤ depth → ts.length < fuel →
      rest.head? ≠ some "AND" →
      loop "AND" .and (Parser.notExpr depth) fuel left (ts ++ rest) = some (.ok (a, rest))

theorem Derives.head_ors {left a : Node} {ts : List String} (h : Derives (.ors left) ts a) :
    ts = [] ∨ ts.head? = some "OR" := by
  cases h with
  | orsNil => exact Or.inl rfl
  | orsCons _ _ => exact Or.inr rfl

theorem Derives.not_and_of_ors {left a : Node} {ts rest : List String}
    (h : Derives (.ors left) ts a) (hrest : rest.head? ≠ some "AND") :
    (ts ++ rest).head? ≠ some "AND" := by
  cases h.head_ors with
  | inl nil =>
      rw [nil]
      exact hrest
  | inr op =>
      rw [List.head?_append, op]
      simp

theorem not_keyword_of_isName {token : String} (h : IsName token) :
    (keywords.contains token || token == ")") = false ∧ token ≠ "(" := by
  obtain ⟨⟨c, cs, htoken, start, _⟩, notKeyword⟩ := h
  have notBracket := not_bracket_of_isNameStart start
  constructor
  · rw [Bool.or_eq_false_iff, beq_eq_false_iff_ne]
    constructor
    · simpa using notKeyword
    · intro eq
      rw [eq] at htoken
      simp only [String.reduceToList, List.cons.injEq] at htoken
      exact notBracket (Or.inr htoken.1.symm)
  · intro eq
    rw [eq] at htoken
    simp only [String.reduceToList, List.cons.injEq] at htoken
    exact notBracket (Or.inl htoken.1.symm)

theorem atom_name {token : String} (h : IsName token) (fuel : ℕ) (rest : List String) :
    Parser.atom (fuel + 1) (token :: rest) = some (.ok (.pred token, rest)) := by
  obtain ⟨other, notOpen⟩ := not_keyword_of_isName h
  rw [Parser.atom, if_neg notOpen, other]
  rfl

theorem ne_not_of_isName {token : String} (h : IsName token) : token ≠ "NOT" := by
  intro eq
  exact h.2 (by rw [eq]; decide)

theorem Derives.read {p : Phrase} {ts : List String} {a : Node} (h : Derives p ts a) :
    Read p ts a := by
  induction h with
  | @expr ts more a n _ tail first rest_ih =>
      intro fuel rest enough notAnd notOr
      rw [List.length_append] at enough
      obtain ⟨fuel, rfl⟩ := Nat.exists_eq_add_of_lt (show 0 < fuel by omega)
      rw [Nat.zero_add, Parser.orExpr, List.append_assoc,
        first fuel (more ++ rest) (by omega) (tail.not_and_of_ors notAnd)]
      exact rest_ih fuel fuel rest (by omega) (by omega) notAnd notOr
  | orsNil =>
      intro depth fuel rest _ enough _ notOr
      obtain ⟨fuel, rfl⟩ := Nat.exists_eq_add_of_lt (show 0 < fuel from enough)
      exact Descent.loop_stop notOr
  | @orsCons ts more a b n _ tail first rest_ih =>
      intro depth fuel rest deep enough notAnd notOr
      simp only [List.length_cons, List.length_append] at deep enough
      obtain ⟨fuel, rfl⟩ := Nat.exists_eq_add_of_lt (show 0 < fuel by omega)
      have operand := first depth (more ++ rest) (by omega) (tail.not_and_of_ors notAnd)
      rw [Nat.zero_add, List.cons_append, List.append_assoc, Descent.loop_more operand]
      exact rest_ih depth fuel rest (by omega) (by omega) notAnd notOr
  | @and ts more a n _ _ first rest_ih =>
      intro fuel rest enough notAnd
      rw [List.length_append] at enough
      obtain ⟨fuel, rfl⟩ := Nat.exists_eq_add_of_lt (show 0 < fuel by omega)
      rw [Nat.zero_add, Parser.andExpr, List.append_assoc, first fuel (more ++ rest) (by omega)]
      exact rest_ih fuel fuel rest (by omega) (by omega) notAnd
  | andsNil =>
      intro depth fuel rest _ enough notAnd
      obtain ⟨fuel, rfl⟩ := Nat.exists_eq_add_of_lt (show 0 < fuel from enough)
      exact Descent.loop_stop notAnd
  | @andsCons ts more a b n _ _ first rest_ih =>
      intro depth fuel rest deep enough notAnd
      simp only [List.length_cons, List.length_append] at deep enough
      obtain ⟨fuel, rfl⟩ := Nat.exists_eq_add_of_lt (show 0 < fuel by omega)
      have operand := first depth (more ++ rest) (by omega)
      rw [Nat.zero_add, List.cons_append, List.append_assoc, Descent.loop_more operand]
      exact rest_ih depth fuel rest (by omega) (by omega) notAnd
  | @not ts a _ ih =>
      intro fuel rest enough
      rw [List.length_cons] at enough
      obtain ⟨fuel, rfl⟩ := Nat.exists_eq_add_of_lt (show 0 < fuel by omega)
      rw [Nat.zero_add, Parser.notExpr, List.cons_append, List.head?_cons, if_pos rfl,
        List.tail_cons, ih fuel rest (by omega)]
      rfl
  | @group ts a _ ih =>
      intro fuel rest enough
      simp only [List.length_cons, List.length_append, List.length_nil] at enough
      obtain ⟨fuel, rfl⟩ := Nat.exists_eq_add_of_lt (show 1 < fuel by omega)
      have inner := ih fuel (")" :: rest) (by omega) (by simp) (by simp)
      rw [show 1 + fuel + 1 = fuel + 1 + 1 by omega, Parser.notExpr, if_neg (by simp),
        List.cons_append, List.append_assoc, Parser.atom, if_pos rfl]
      rw [List.singleton_append, inner]
      rfl
  | name h =>
      intro fuel rest enough
      obtain ⟨fuel, rfl⟩ := Nat.exists_eq_add_of_lt (show 1 < fuel by simp at enough; omega)
      rw [show 1 + fuel + 1 = fuel + 1 + 1 by omega, Parser.notExpr,
        if_neg (by simpa using ne_not_of_isName h)]
      exact atom_name h fuel rest

theorem Derives.ne_nil {p : Phrase} {ts : List String} {a : Node} (h : Derives p ts a)
    (notOrs : ∀ b, p ≠ .ors b) (notAnds : ∀ b, p ≠ .ands b) : ts ≠ [] := by
  induction h with
  | expr _ _ ih _ => simp [ih (by simp) (by simp)]
  | orsNil => exact absurd rfl (notOrs _)
  | orsCons _ _ _ _ => simp
  | and _ _ ih _ => simp [ih (by simp) (by simp)]
  | andsNil => exact absurd rfl (notAnds _)
  | andsCons _ _ _ _ => simp
  | not _ _ => simp
  | group _ _ => simp
  | name _ => simp

theorem Sound.onward {reader : List String → Reading GuardExprError String Node} {p : Phrase}
    (h : Sound reader p) {tokens : List String} (all : ∀ t ∈ tokens, IsToken t) :
    ∀ ts a rest, ts <:+ tokens → reader ts = some (.ok (a, rest)) → rest <:+ ts := by
  intro ts a rest sub read
  obtain ⟨used, hts, _⟩ := h ts a rest (fun t ht => all t (sub.subset ht)) read
  exact ⟨used, hts.symm⟩

theorem operand_loop_isSome {op : String} {build : Node → Node → Node} {p : Phrase}
    {reader : List String → Reading GuardExprError String Node} (hreader : Sound reader p)
    {fuel : ℕ} {tokens : List String} (all : ∀ t ∈ tokens, IsToken t)
    (total : ∀ ts, ts <:+ tokens → (reader ts).isSome) (enough : tokens.length < fuel) :
    (andThen (reader tokens) fun node rest => loop op build reader fuel node rest).isSome := by
  apply Descent.andThen_isSome (total tokens (List.suffix_refl _))
  intro a rest read
  have sub := hreader.onward all tokens a rest (List.suffix_refl _) read
  have le := sub.length_le
  apply Descent.loop_isSome (by omega)
  · intro ts hts _
    exact total ts (hts.trans sub)
  · intro ts b after hts
    exact hreader.onward all ts b after (hts.trans sub)

/-- The four readers on one amount of fuel answer, over tokens it suffices for. -/
structure TotalAt (fuel : ℕ) : Prop where
  orExpr : ∀ ts, (∀ t ∈ ts, IsToken t) → 4 * ts.length + 4 ≤ fuel → (Parser.orExpr fuel ts).isSome
  andExpr : ∀ ts, (∀ t ∈ ts, IsToken t) → 4 * ts.length + 3 ≤ fuel →
    (Parser.andExpr fuel ts).isSome
  notExpr : ∀ ts, (∀ t ∈ ts, IsToken t) → 4 * ts.length + 2 ≤ fuel →
    (Parser.notExpr fuel ts).isSome
  atom : ∀ ts, (∀ t ∈ ts, IsToken t) → 4 * ts.length + 1 ≤ fuel → (Parser.atom fuel ts).isSome

theorem totalAt (fuel : ℕ) : TotalAt fuel := by
  induction fuel with
  | zero => constructor <;> intro ts _ enough <;> omega
  | succ fuel ih =>
      constructor
      · intro ts all enough
        rw [Parser.orExpr]
        apply operand_loop_isSome (soundAt fuel).andExpr all _ (by omega)
        intro ts' sub
        have le := sub.length_le
        exact ih.andExpr ts' (fun t ht => all t (sub.subset ht)) (by omega)
      · intro ts all enough
        rw [Parser.andExpr]
        apply operand_loop_isSome (soundAt fuel).notExpr all _ (by omega)
        intro ts' sub
        have le := sub.length_le
        exact ih.notExpr ts' (fun t ht => all t (sub.subset ht)) (by omega)
      · intro ts all enough
        rw [Parser.notExpr]
        split
        · cases ts with
          | nil => simp at *
          | cons token ts =>
              rw [List.length_cons] at enough
              have all' : ∀ t ∈ ts, IsToken t := fun t ht => all t (by simp [ht])
              apply Descent.andThen_isSome (ih.notExpr ts all' (by omega))
              intro a rest _
              rfl
        · exact ih.atom ts all (by omega)
      · intro ts all enough
        cases ts with
        | nil => rfl
        | cons token ts =>
            rw [Parser.atom]
            split
            · rw [List.length_cons] at enough
              have all' : ∀ t ∈ ts, IsToken t := fun t ht => all t (by simp [ht])
              apply Descent.andThen_isSome (ih.orExpr ts all' (by omega))
              intro a rest _
              split
              · rfl
              · rfl
            · split
              · rfl
              · rfl

theorem parse_isSome {tokens : List String} (all : ∀ t ∈ tokens, IsToken t) :
    ∃ answer, Parser.parse tokens = some answer := by
  rw [Parser.parse]
  split
  · exact ⟨_, rfl⟩
  · have total := (totalAt (4 * tokens.length + 4)).orExpr tokens all (le_refl _)
    obtain ⟨answer, run⟩ := Option.isSome_iff_exists.mp total
    rw [run]
    cases answer with
    | error e => exact ⟨_, rfl⟩
    | ok read =>
        dsimp only
        split
        · exact ⟨_, rfl⟩
        · exact ⟨_, rfl⟩

theorem parse_eq_ok {tokens : List String} (all : ∀ t ∈ tokens, IsToken t) {node : Node} :
    Parser.parse tokens = some (.ok node) ↔ Derives .expr tokens node := by
  constructor
  · intro run
    rw [Parser.parse] at run
    split at run
    · simp at run
    · split at run
      · simp at run
      · simp at run
      · rename_i read hread
        split at run
        · rename_i atEnd
          simp only [Option.some.injEq, Except.ok.injEq] at run
          obtain ⟨used, htokens, derived⟩ := (soundAt _).orExpr tokens read.1 read.2 all hread
          rw [List.isEmpty_iff.mp atEnd, List.append_nil] at htokens
          rw [htokens, ← run]
          exact derived
        · simp at run
  · intro derived
    have nonempty := derived.ne_nil (by simp) (by simp)
    have read := derived.read (4 * tokens.length + 4) [] (le_refl _) (by simp) (by simp)
    rw [List.append_nil] at read
    rw [Parser.parse, if_neg (by simpa using nonempty), read]
    rfl

theorem parseGuardExpr_of_lexes {expr : String} {tokens : List String}
    (h : Lexes expr.toList tokens) : parseGuardExpr expr = Parser.parse tokens := by
  rw [parseGuardExpr, tokenize_eq_ok.mpr h]

theorem parseGuardExpr_eq_ok {expr : String} {node : Node} :
    parseGuardExpr expr = some (.ok node) ↔
      ∃ tokens, Lexes expr.toList tokens ∧ Derives .expr tokens node := by
  constructor
  · intro run
    rw [parseGuardExpr] at run
    split at run
    · simp at run
    · rename_i tokens lexed
      have lexes := tokenize_eq_ok.mp lexed
      exact ⟨tokens, lexes, (parse_eq_ok lexes.isToken).mp run⟩
  · intro h
    obtain ⟨tokens, lexes, derived⟩ := h
    rw [parseGuardExpr_of_lexes lexes]
    exact (parse_eq_ok lexes.isToken).mpr derived

theorem parseGuardExpr_isSome (expr : String) : ∃ answer, parseGuardExpr expr = some answer := by
  rw [parseGuardExpr]
  split
  · exact ⟨_, rfl⟩
  · rename_i tokens lexed
    exact parse_isSome (tokenize_eq_ok.mp lexed).isToken

/-- The text of a tree, with brackets around every operator. -/
def Node.print : Node → String
  | .pred name => name
  | .not operand => "(NOT " ++ operand.print ++ ")"
  | .and left right => "(" ++ left.print ++ " AND " ++ right.print ++ ")"
  | .or left right => "(" ++ left.print ++ " OR " ++ right.print ++ ")"

def Node.tokens : Node → List String
  | .pred name => [name]
  | .not operand => "(" :: "NOT" :: (operand.tokens ++ [")"])
  | .and left right => "(" :: (left.tokens ++ "AND" :: (right.tokens ++ [")"]))
  | .or left right => "(" :: (left.tokens ++ "OR" :: (right.tokens ++ [")"]))

/-- Every name of the tree is an identifier that is no keyword. -/
def Node.WellNamed (node : Node) : Prop := ∀ name ∈ predicateNames node, IsName name

theorem Node.WellNamed.left {a b : Node}
    (h : ∀ name ∈ predicateNames a ∪ predicateNames b, IsName name) : a.WellNamed :=
  fun name hname => h name (Finset.mem_union_left _ hname)

theorem Node.WellNamed.right {a b : Node}
    (h : ∀ name ∈ predicateNames a ∪ predicateNames b, IsName name) : b.WellNamed :=
  fun name hname => h name (Finset.mem_union_right _ hname)

theorem Lexes.close {cs : List Char} {tokens : List String} (more : Lexes cs tokens) :
    Lexes (')' :: cs) (")" :: tokens) := .bracket (Or.inr rfl) more

theorem stops {c : Char} (h : isNameChar c = false) (cs : List Char) :
    ∀ d ∈ (c :: cs).head?, isNameChar d = false := by
  intro d hd
  simp only [List.head?_cons, Option.mem_some_iff] at hd
  rw [← hd]
  exact h

theorem Lexes.operator {word : List Char} (hword : IsIdentifier word) {cs : List Char}
    {tokens : List String} (more : Lexes cs tokens) :
    Lexes (' ' :: (word ++ ' ' :: cs)) (String.ofList word :: tokens) := by
  apply Lexes.space (by decide)
  apply Lexes.name hword (stops (by decide) _)
  exact .space (by decide) more

theorem isIdentifier_of_keyword {word : String} (h : word ∈ keywords) :
    IsIdentifier word.toList := by
  simp only [keywords, List.mem_cons, List.not_mem_nil, or_false] at h
  rcases h with rfl | rfl | rfl
  · exact ⟨'A', ['N', 'D'], by simp, by decide, by
      simp [isNameChar, Char.isAlphanum, Char.isAlpha, Char.isUpper]⟩
  · exact ⟨'O', ['R'], by simp, by decide, by
      simp [isNameChar, Char.isAlphanum, Char.isAlpha, Char.isUpper]⟩
  · exact ⟨'N', ['O', 'T'], by simp, by decide, by
      simp [isNameChar, Char.isAlphanum, Char.isAlpha, Char.isUpper]⟩

theorem Node.lexes_print {node : Node} (named : node.WellNamed) {cs : List Char}
    {tokens : List String} (stop : ∀ c ∈ cs.head?, isNameChar c = false)
    (more : Lexes cs tokens) : Lexes (node.print.toList ++ cs) (node.tokens ++ tokens) := by
  induction node generalizing cs tokens with
  | pred name =>
      have word := (named name (by simp [predicateNames])).1
      have lexed := Lexes.name word stop more
      rw [String.ofList_toList] at lexed
      exact lexed
  | not operand ih =>
      have inner := ih named (stops (by decide) cs) more.close
      have hnot : IsIdentifier "NOT".toList := isIdentifier_of_keyword (by decide)
      have blank := Lexes.space (c := ' ') (by decide) inner
      have word := Lexes.name hnot (stops (by decide) _) blank
      have whole := Lexes.bracket (Or.inl rfl) word
      simpa [Node.print, Node.tokens] using whole
  | and left right ihl ihr =>
      have last := ihr (Node.WellNamed.right named) (stops (by decide) cs) more.close
      have hword : IsIdentifier "AND".toList := isIdentifier_of_keyword (by decide)
      have first := ihl (Node.WellNamed.left named) (stops (by decide) _) (.operator hword last)
      have whole := Lexes.bracket (Or.inl rfl) first
      simpa [Node.print, Node.tokens] using whole
  | or left right ihl ihr =>
      have last := ihr (Node.WellNamed.right named) (stops (by decide) cs) more.close
      have hword : IsIdentifier "OR".toList := isIdentifier_of_keyword (by decide)
      have first := ihl (Node.WellNamed.left named) (stops (by decide) _) (.operator hword last)
      have whole := Lexes.bracket (Or.inl rfl) first
      simpa [Node.print, Node.tokens] using whole

theorem Derives.and_of_not {ts : List String} {a : Node} (h : Derives .not ts a) :
    Derives .and ts a := by
  have whole := Derives.and h .andsNil
  rwa [List.append_nil] at whole

theorem Derives.expr_of_and {ts : List String} {a : Node} (h : Derives .and ts a) :
    Derives .expr ts a := by
  have whole := Derives.expr h .orsNil
  rwa [List.append_nil] at whole

theorem Node.derives_tokens {node : Node} (named : node.WellNamed) :
    Derives .not node.tokens node := by
  induction node with
  | pred name => exact .name (named name (by simp [predicateNames]))
  | not operand ih =>
      have inner := (Derives.not (ih named)).and_of_not.expr_of_and
      exact .group inner
  | and left right ihl ihr =>
      have tail := Derives.andsCons (a := left) (ihr (Node.WellNamed.right named)) .andsNil
      have inner := (Derives.and (ihl (Node.WellNamed.left named)) tail).expr_of_and
      simpa [Node.tokens] using Derives.group inner
  | or left right ihl ihr =>
      have operand := (ihr (Node.WellNamed.right named)).and_of_not
      have tail := Derives.orsCons (a := left) operand .orsNil
      have inner := Derives.expr (ihl (Node.WellNamed.left named)).and_of_not tail
      simpa [Node.tokens] using Derives.group inner

theorem parseGuardExpr_print {node : Node} (named : node.WellNamed) :
    parseGuardExpr node.print = some (.ok node) := by
  apply parseGuardExpr_eq_ok.mpr
  have lexes := Node.lexes_print named (by simp) Lexes.done
  rw [List.append_nil, List.append_nil] at lexes
  exact ⟨node.tokens, lexes, (Node.derives_tokens named).and_of_not.expr_of_and⟩

theorem evalGuardExpr_congr {node : Node} {values values' : String → Option Bool}
    (same : ∀ name ∈ predicateNames node, values name = values' name) :
    evalGuardExpr values node = evalGuardExpr values' node := by
  induction node with
  | pred name => simp [evalGuardExpr, same name (by simp [predicateNames])]
  | not operand ih => rw [evalGuardExpr, evalGuardExpr, ih same]
  | and left right ihl ihr =>
      have hl := ihl fun name h => same name (Finset.mem_union_left _ h)
      have hr := ihr fun name h => same name (Finset.mem_union_right _ h)
      rw [evalGuardExpr, evalGuardExpr, hl, hr]
  | or left right ihl ihr =>
      have hl := ihl fun name h => same name (Finset.mem_union_left _ h)
      have hr := ihr fun name h => same name (Finset.mem_union_right _ h)
      rw [evalGuardExpr, evalGuardExpr, hl, hr]

example : parseGuardExpr "a OR NOT b AND c"
    = some (.ok (.or (.pred "a") (.and (.not (.pred "b")) (.pred "c")))) := by decide +kernel

/-- The parser always answers; it answers a tree exactly on the texts whose tokens derive
    from the grammar, the tree of the derivation; it reads back the printed form of every
    tree; and a tree's value depends on its predicate names alone. -/
theorem guard_parser_exact :
    (∀ expr, ∃ answer, parseGuardExpr expr = some answer) ∧
    (∀ expr tokens, tokenize expr = .ok tokens ↔ Lexes expr.toList tokens) ∧
    (∀ expr node, parseGuardExpr expr = some (.ok node) ↔
      ∃ tokens, Lexes expr.toList tokens ∧ Derives .expr tokens node) ∧
    (∀ node : Node, node.WellNamed → parseGuardExpr node.print = some (.ok node)) ∧
    (∀ expr node values values', parseGuardExpr expr = some (.ok node) →
      (∀ name ∈ predicateNames node, values name = values' name) →
      evalGuardExpr values node = evalGuardExpr values' node) := by
  refine ⟨parseGuardExpr_isSome, fun _ _ => tokenize_eq_ok, fun _ _ => parseGuardExpr_eq_ok,
    fun _ named => parseGuardExpr_print named, ?_⟩
  intro _ _ _ _ _ same
  exact evalGuardExpr_congr same

theorem guard_parser_exact_bracketed :
    parseGuardExpr "(a AND b)" = some (.ok (.and (.pred "a") (.pred "b"))) :=
  guard_parser_exact.2.2.2.1 (.and (.pred "a") (.pred "b")) fun name h => by
    have cases : name = "a" ∨ name = "b" := by simpa [predicateNames] using h
    rcases cases with rfl | rfl
    · exact ⟨⟨'a', [], by simp, by decide, by simp⟩, by decide⟩
    · exact ⟨⟨'b', [], by simp, by decide, by simp⟩, by decide⟩

end FeatureGen.GuardExpr
