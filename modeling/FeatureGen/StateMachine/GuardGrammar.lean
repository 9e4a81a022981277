import Mathlib
import FeatureGen.Lib.Checks
import FeatureGen.Lib.Descent
import FeatureGen.Lib.Text
import FeatureGen.Overlay.Identity

/-! # Guard expressions

`state_machine/guard_expr.py`: the tokens of a guard expression, its parser, and the
value and the predicate names of a parsed expression. The parser's methods read the
list of the tokens ahead of its index.

The tokens of a text and the phrases of the grammar as relations of their own, and
that the tokenizer and the parser compute them.
-/

namespace FeatureGen.GuardExpr

open Overlay (isSpace)
open Descent (Reading andThen loop)

inductive Node where
  | pred (name : String)
  | not (operand : Node)
  | and (left right : Node)
  | or (left right : Node)
  deriving DecidableEq

/-- The ways a guard expression is malformed. -/
inductive GuardExprError where
  | unexpectedCharacter (c : Char) (expr : String)
  | emptyExpression
  | trailingTokens (tokens : List String)
  | unexpectedEnd
  | expectedClose
  | unexpectedToken (token : String)
  deriving DecidableEq

/-- The text of a `GuardExprError`. -/
def GuardExprError.message : GuardExprError → String
  | .unexpectedCharacter c expr =>
      s!"unexpected character {Text.repr (String.singleton c)} in {Text.repr expr}"
  | .emptyExpression => "empty guard expression"
  | .trailingTokens tokens =>
      "trailing tokens: [" ++ String.intercalate ", " (tokens.map Text.repr) ++ "]"
  | .unexpectedEnd => "unexpected end of expression"
  | .expectedClose => "expected ')'"
  | .unexpectedToken token => s!"unexpected token {Text.repr token}"

/-- `[A-Za-z_]`. -/
def isNameStart (c : Char) : Bool := c.isAlpha || c == '_'

/-- `[A-Za-z0-9_]`. -/
def isNameChar (c : Char) : Bool := c.isAlphanum || c == '_'

/-- `_TOKEN_RE.match`, at the first of the characters. -/
def matchToken : List Char → Option (List Char)
  | [] => none
  | c :: cs =>
      if c = '(' ∨ c = ')' then some [c]
      else if isNameStart c then some (c :: cs.takeWhile isNameChar)
      else none

def keywords : List String := ["AND", "OR", "NOT"]

/-- The loop of `_tokenize`. The number counts the characters up to `pos`, those of
    the token matched last. -/
def tokenizeFrom (expr : String) : List Char → ℕ → Except GuardExprError (List String)
  | [], _ => .ok []
  | _ :: cs, passed + 1 => tokenizeFrom expr cs passed
  | c :: cs, 0 =>
      if isSpace c then tokenizeFrom expr cs 0
      else
        match matchToken (c :: cs) with
        | none => .error (.unexpectedCharacter c expr)
        | some token =>
            (tokenizeFrom expr cs (token.length - 1)).map (String.ofList token :: ·)

def tokenize (expr : String) : Except GuardExprError (List String) :=
  tokenizeFrom expr expr.toList 0

namespace Parser

mutual

/-- `_Parser._or`. -/
def orExpr : ℕ → List String → Reading GuardExprError String Node
  | 0, _ => none
  | fuel + 1, tokens =>
      andThen (andExpr fuel tokens) fun node rest => loop "OR" .or (andExpr fuel) fuel node rest

/-- `_Parser._and`. -/
def andExpr : ℕ → List String → Reading GuardExprError String Node
  | 0, _ => none
  | fuel + 1, tokens =>
      andThen (notExpr fuel tokens) fun node rest => loop "AND" .and (notExpr fuel) fuel node rest

/-- `_Parser._not`. -/
def notExpr : ℕ → List String → Reading GuardExprError String Node
  | 0, _ => none
  | fuel + 1, tokens =>
      if tokens.head? = some "NOT" then
        andThen (notExpr fuel tokens.tail) fun operand rest => some (.ok (.not operand, rest))
      else atom fuel tokens

def atom : ℕ → List String → Reading GuardExprError String Node
  | 0, _ => none
  | _ + 1, [] => some (.error .unexpectedEnd)
  | fuel + 1, token :: tokens =>
      if token = "(" then
        andThen (orExpr fuel tokens) fun node rest =>
          if rest.head? = some ")" then some (.ok (node, rest.tail))
          else some (.error .expectedClose)
      else if keywords.contains token || token == ")" then some (.error (.unexpectedToken token))
      else some (.ok (.pred token, tokens))

end

def parse (tokens : List String) : Option (Except GuardExprError Node) :=
  if tokens.isEmpty then some (.error .emptyExpression)
  else
    match orExpr (4 * tokens.length + 4) tokens with
    | none => none
    | some (.error e) => some (.error e)
    | some (.ok read) =>
        if read.2.isEmpty then some (.ok read.1) else some (.error (.trailingTokens read.2))

end Parser

/-- `parse_guard_expr`. None where the parser's fuel runs out. -/
def parseGuardExpr (expr : String) : Option (Except GuardExprError Node) :=
  match tokenize expr with
  | .error e => some (.error e)
  | .ok tokens => Parser.parse tokens

/-- `eval_guard_expr`. The error names the key that the mapping does not hold. -/
def evalGuardExpr (predicateValues : String → Option Bool) : Node → Except String Bool
  | .pred name => (predicateValues name).elim (.error name) .ok
  | .not operand => (evalGuardExpr predicateValues operand).map (!·)
  | .and left right =>
      (evalGuardExpr predicateValues left).bind fun value =>
        if value then evalGuardExpr predicateValues right else .ok false
  | .or left right =>
      (evalGuardExpr predicateValues left).bind fun value =>
        if value then .ok true else evalGuardExpr predicateValues right

def predicateNames : Node → Finset String
  | .pred name => {name}
  | .not operand => predicateNames operand
  | .and left right => predicateNames left ∪ predicateNames right
  | .or left right => predicateNames left ∪ predicateNames right

end FeatureGen.GuardExpr

namespace FeatureGen.GuardExpr

open Overlay (isSpace)
open Descent (Reading andThen loop)

/-- `[A-Za-z_][A-Za-z0-9_]*`. -/
def IsIdentifier (word : List Char) : Prop :=
  ∃ c cs, word = c :: cs ∧ isNameStart c ∧ ∀ d ∈ cs, isNameChar d

/-- The tokens of a text: brackets and identifiers, each identifier as long as it can
    be, with white space between them. -/
inductive Lexes : List Char → List String → Prop
  | done : Lexes [] []
  | space {c : Char} {cs : List Char} {tokens : List String} (h : isSpace c)
      (more : Lexes cs tokens) : Lexes (c :: cs) tokens
  | bracket {c : Char} {cs : List Char} {tokens : List String} (h : c = '(' ∨ c = ')')
      (more : Lexes cs tokens) : Lexes (c :: cs) (String.ofList [c] :: tokens)
  | name {word rest : List Char} {tokens : List String} (h : IsIdentifier word)
      (longest : ∀ c ∈ rest.head?, isNameChar c = false) (more : Lexes rest tokens) :
      Lexes (word ++ rest) (String.ofList word :: tokens)

theorem isSpace_eq_false_of_isNameStart {c : Char} (h : isNameStart c) : isSpace c = false := by
  have bounds : 65 ≤ c.toNat ∧ c.toNat ≤ 122 := by
    simp only [isNameStart, Char.isAlpha, Char.isUpper, Char.isLower, Bool.or_eq_true,
      Bool.and_eq_true, decide_eq_true_eq, beq_iff_eq, ge_iff_le, UInt32.le_iff_toNat_le] at h
    rcases h with (h | h) | h
    · exact ⟨h.1, h.2.trans (by decide)⟩
    · exact ⟨le_trans (by decide) h.1, h.2⟩
    · rw [h]
      decide
  simp only [isSpace, decide_eq_false_iff_not]
  omega

theorem not_bracket_of_isNameStart {c : Char} (h : isNameStart c) : ¬ (c = '(' ∨ c = ')') := by
  intro bracket
  rcases bracket with rfl | rfl
  · exact absurd h (by decide)
  · exact absurd h (by decide)

theorem isSpace_eq_false_of_bracket {c : Char} (h : c = '(' ∨ c = ')') : isSpace c = false := by
  rcases h with rfl | rfl
  · decide
  · decide

theorem tokenizeFrom_append (expr : String) (passed cs : List Char) :
    tokenizeFrom expr (passed ++ cs) passed.length = tokenizeFrom expr cs 0 := by
  induction passed with
  | nil => rfl
  | cons c passed ih => exact ih

theorem takeWhile_append_of_stop {p : Char → Bool} {word rest : List Char}
    (all : ∀ d ∈ word, p d) (stop : ∀ c ∈ rest.head?, p c = false) :
    (word ++ rest).takeWhile p = word := by
  rw [List.takeWhile_append_of_pos all]
  cases rest with
  | nil => simp
  | cons c rest => rw [List.takeWhile_cons_of_neg (by simp [stop c (by simp)]), List.append_nil]

theorem tokenizeFrom_of_lexes (expr : String) {cs : List Char} {tokens : List String}
    (h : Lexes cs tokens) : tokenizeFrom expr cs 0 = .ok tokens := by
  induction h with
  | done => rfl
  | space h _ ih => rw [tokenizeFrom, if_pos h, ih]
  | bracket h _ ih =>
      rw [tokenizeFrom, isSpace_eq_false_of_bracket h]
      simp [matchToken, h, ih, Except.map]
  | name h longest _ ih =>
      obtain ⟨c, cs, rfl, start, all⟩ := h
      rw [List.cons_append, tokenizeFrom, isSpace_eq_false_of_isNameStart start]
      have matched := takeWhile_append_of_stop all longest
      simp only [matchToken, not_bracket_of_isNameStart start, if_false, start, if_true, matched,
        List.length_cons, Nat.add_sub_cancel, tokenizeFrom_append, ih, Except.map,
        Bool.false_eq_true]

theorem lexes_of_tokenizeFrom (expr : String) {cs : List Char} {tokens : List String}
    (h : tokenizeFrom expr cs 0 = .ok tokens) : Lexes cs tokens := by
  induction n : cs.length using Nat.strong_induction_on generalizing cs tokens with
  | _ n ih =>
      subst n
      cases cs with
      | nil =>
          simp only [tokenizeFrom, Except.ok.injEq] at h
          rw [← h]
          exact .done
      | cons c cs =>
          rw [tokenizeFrom] at h
          split at h
          · exact .space ‹_› (ih _ (by simp) h rfl)
          · split at h
            · simp at h
            · rename_i token matched
              obtain ⟨more, hmore, rfl⟩ := Checks.map_eq_ok.mp h
              simp only [matchToken] at matched
              split at matched
              · rename_i bracket
                simp only [Option.some.injEq] at matched
                subst matched
                exact .bracket bracket (ih _ (by simp) hmore rfl)
              · split at matched
                · rename_i start
                  simp only [Option.some.injEq] at matched
                  subst matched
                  have parts := List.takeWhile_append_dropWhile (p := isNameChar) (l := cs)
                  have hrest : tokenizeFrom expr (cs.dropWhile isNameChar) 0 = .ok more := by
                    rw [← tokenizeFrom_append expr (cs.takeWhile isNameChar), parts]
                    exact hmore
                  have short := (List.dropWhile_suffix (p := isNameChar) (l := cs)).length_le
                  have lexed : Lexes (cs.dropWhile isNameChar) more :=
                    ih _ (by simp; omega) hrest rfl
                  have word : IsIdentifier (c :: cs.takeWhile isNameChar) :=
                    ⟨c, _, rfl, start, fun d hd => List.mem_takeWhile_imp hd⟩
                  have whole := Lexes.name word (fun d hd => by
                    have := List.head?_dropWhile_not isNameChar cs
                    rw [Option.mem_def.mp hd] at this
                    simpa using this) lexed
                  rw [List.cons_append, parts] at whole
                  exact whole
                · simp at matched

theorem tokenize_eq_ok {expr : String} {tokens : List String} :
    tokenize expr = .ok tokens ↔ Lexes expr.toList tokens :=
  ⟨lexes_of_tokenizeFrom expr, tokenizeFrom_of_lexes expr⟩

def IsName (token : String) : Prop := IsIdentifier token.toList ∧ token ∉ keywords

/-- The phrases of the grammar. `ors` and `ands` are what may follow an operand, with
    the tree read up to there. -/
inductive Phrase where
  | expr
  | and
  | not
  | ors (left : Node)
  | ands (left : Node)

/-- `expr := and ('OR' and)*`, `and := not ('AND' not)*`,
    `not := 'NOT' not | '(' expr ')' | name`, each with its tree. -/
inductive Derives : Phrase → List String → Node → Prop
  | expr {ts more : List String} {a n : Node} :
      Derives .and ts a → Derives (.ors a) more n → Derives .expr (ts ++ more) n
  | orsNil {a : Node} : Derives (.ors a) [] a
  | orsCons {ts more : List String} {a b n : Node} :
      Derives .and ts b → Derives (.ors (.or a b)) more n →
      Derives (.ors a) ("OR" :: (ts ++ more)) n
  | and {ts more : List String} {a n : Node} :
      Derives .not ts a → Derives (.ands a) more n → Derives .and (ts ++ more) n
  | andsNil {a : Node} : Derives (.ands a) [] a
  | andsCons {ts more : List String} {a b n : Node} :
      Derives .not ts b → Derives (.ands (.and a b)) more n →
      Derives (.ands a) ("AND" :: (ts ++ more)) n
  | not {ts : List String} {a : Node} : Derives .not ts a → Derives .not ("NOT" :: ts) (.not a)
  | group {ts : List String} {a : Node} :
      Derives .expr ts a → Derives .not ("(" :: (ts ++ [")"])) a
  | name {token : String} : IsName token → Derives .not [token] (.pred token)

def IsToken (token : String) : Prop := token = "(" ∨ token = ")" ∨ IsIdentifier token.toList

theorem Lexes.isToken {cs : List Char} {tokens : List String} (h : Lexes cs tokens) :
    ∀ t ∈ tokens, IsToken t := by
  induction h with
  | done =>
      intro t ht
      simp at ht
  | space _ _ ih => exact ih
  | bracket h _ ih =>
      intro t ht
      cases List.mem_cons.mp ht with
      | inl eq =>
          rcases h with rfl | rfl
          · exact Or.inl eq
          · exact Or.inr (Or.inl eq)
      | inr later => exact ih t later
  | name h _ _ ih =>
      intro t ht
      cases List.mem_cons.mp ht with
      | inl eq =>
          rw [eq]
          exact Or.inr (Or.inr (by rw [String.toList_ofList]; exact h))
      | inr later => exact ih t later

end FeatureGen.GuardExpr
