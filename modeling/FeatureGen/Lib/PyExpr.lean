import FeatureGen.Lib.PyTokens

/-! # Python expressions

The expression a sequence of tokens is, by operator precedence: attributes and calls
before `-` and `~`, these before `&`, that before `|`, and comparisons last. Reading is a
stack machine. Chained comparisons are not read.
-/

namespace Python

inductive Expr where
  | name (s : String)
  | text (s : String)
  | number (n : ℕ)
  | list (items : List Expr)
  | attr (e : Expr) (s : String)
  | call (f : Expr) (args : List Expr)
  | neg (e : Expr)
  | invert (e : Expr)
  | binary (op : Binary) (a b : Expr)
  | compare (op : Comparison) (a b : Expr)

/-- What waits for the expression being read. -/
inductive Frame where
  | paren
  | items (es : List Expr)
  | args (f : Expr) (es : List Expr)
  | neg
  | invert
  | binary (op : Binary) (a : Expr)
  | compare (op : Comparison) (a : Expr)

inductive State where
  /-- An expression has to come. -/
  | operand (stack : List Frame)
  /-- A list or a call has been opened: an expression, or its closing bracket. -/
  | opened (stack : List Frame)
  | after (e : Expr) (stack : List Frame)
  /-- After a dot. -/
  | member (e : Expr) (stack : List Frame)

/-- How tightly an operator binds. -/
def Binary.level : Binary → ℕ
  | .both => 3
  | .either => 2

def unaryLevel : ℕ := 4

/-- How tightly a frame holds what is read. A bracket holds it until it is closed. -/
def Frame.level : Frame → ℕ
  | .neg => unaryLevel
  | .invert => unaryLevel
  | .binary op _ => op.level
  | .compare _ _ => 1
  | _ => 0

def Frame.build (e : Expr) : Frame → Expr
  | .neg => .neg e
  | .invert => .invert e
  | .binary op a => .binary op a e
  | .compare op a => .compare op a e
  | _ => e

/-- The expression once the operators that bind at least so tightly are applied. -/
def reduce (level : ℕ) (e : Expr) : List Frame → Expr × List Frame
  | [] => (e, [])
  | frame :: stack =>
      if level ≤ frame.level then reduce level (frame.build e) stack else (e, frame :: stack)

def readOperand (stack : List Frame) : Token → Option State
  | .name s => some (.after (.name s) stack)
  | .text s => some (.after (.text s) stack)
  | .number n => some (.after (.number n) stack)
  | .mark .openRound => some (.operand (.paren :: stack))
  | .mark .openSquare => some (.opened (.items [] :: stack))
  | .mark .tilde => some (.operand (.invert :: stack))
  | .mark .minus => some (.operand (.neg :: stack))
  | .mark _ => none

/-- A closing bracket where nothing was read after the opening one. -/
def closeEmpty : List Frame → Token → Option State
  | .items es :: stack, .mark .closeSquare => some (.after (.list es) stack)
  | .args f es :: stack, .mark .closeRound => some (.after (.call f es) stack)
  | _, _ => none

def closeRound (e : Expr) : List Frame → Option State
  | .paren :: stack => some (.after e stack)
  | .args f es :: stack => some (.after (.call f (es ++ [e])) stack)
  | _ => none

def closeSquare (e : Expr) : List Frame → Option State
  | .items es :: stack => some (.after (.list (es ++ [e])) stack)
  | _ => none

def readComma (e : Expr) : List Frame → Option State
  | .args f es :: stack => some (.opened (.args f (es ++ [e]) :: stack))
  | .items es :: stack => some (.opened (.items (es ++ [e]) :: stack))
  | _ => none

def readComparison (op : Comparison) (e : Expr) : List Frame → Option State
  | .compare _ _ :: _ => none
  | stack => some (.operand (.compare op e :: stack))

def readAfter (e : Expr) (stack : List Frame) : Token → Option State
  | .mark .dot => some (.member e stack)
  | .mark .openRound => some (.opened (.args e [] :: stack))
  | .mark (.binary op) =>
      let held := reduce op.level e stack
      some (.operand (.binary op held.1 :: held.2))
  | .mark (.compare op) => let held := reduce 2 e stack; readComparison op held.1 held.2
  | .mark .closeRound => let held := reduce 1 e stack; closeRound held.1 held.2
  | .mark .closeSquare => let held := reduce 1 e stack; closeSquare held.1 held.2
  | .mark .comma => let held := reduce 1 e stack; readComma held.1 held.2
  | _ => none

def readMember (e : Expr) (stack : List Frame) : Token → Option State
  | .name s => some (.after (.attr e s) stack)
  | _ => none

def step : State → Token → Option State
  | .operand stack, t => readOperand stack t
  | .opened stack, t => (readOperand stack t).orElse fun _ => closeEmpty stack t
  | .after e stack, t => readAfter e stack t
  | .member e stack, t => readMember e stack t

/-- The end of the tokens. -/
def State.result : State → Option Expr
  | .after e stack =>
      match reduce 1 e stack with
      | (e, []) => some e
      | _ => none
  | _ => none

def parse (ts : List Token) : Option Expr := (ts.foldlM step (.operand [])).bind State.result

def read (source : List Char) : Option Expr := (tokenize source).bind parse

/-- Every round bracket among these tokens has its partner among them. -/
inductive Balanced : List Token → Prop where
  | nil : Balanced []
  | token {t : Token} (opening : t ≠ .mark .openRound) (closing : t ≠ .mark .closeRound) :
      Balanced [t]
  | append {ts us : List Token} (left : Balanced ts) (right : Balanced us) : Balanced (ts ++ us)
  | wrap {ts : List Token} (inner : Balanced ts) :
      Balanced (.mark .openRound :: ts ++ [.mark .closeRound])

theorem Balanced.of_flat {ts : List Token}
    (h : ∀ t ∈ ts, t ≠ .mark .openRound ∧ t ≠ .mark .closeRound) : Balanced ts := by
  induction ts with
  | nil => exact .nil
  | cons t ts ih =>
      have first := h t List.mem_cons_self
      exact .append (.token first.1 first.2) (ih fun u hu => h u (List.mem_cons_of_mem _ hu))

/-- The expression, complete as it stands: nothing before or after it takes a part of it. -/
structure Closed (ts : List Token) (e : Expr) : Prop where
  balanced : Balanced ts
  run : ∀ stack, ts.foldlM step (.operand stack) = some (.after e stack)

/-- The expression under unary operators: it is complete before any operator. -/
structure Unary (ts : List Token) (e : Expr) : Prop where
  balanced : Balanced ts
  run : ∀ stack, ∃ e' stack', ts.foldlM step (.operand stack) = some (.after e' stack') ∧
    ∀ level ≤ unaryLevel, reduce level e' stack' = reduce level e stack

/-- Nothing but a bracket, or the beginning, stands before. -/
def Fresh (stack : List Frame) : Prop := ∀ frame ∈ stack.head?, frame.level = 0

/-- The expression where nothing but a bracket, or the beginning, stands before. -/
structure Whole (ts : List Token) (e : Expr) : Prop where
  balanced : Balanced ts
  run : ∀ stack, Fresh stack → ∃ e' stack',
    ts.foldlM step (.operand stack) = some (.after e' stack') ∧ reduce 1 e' stack' = (e, stack)

variable {ts us : List Token} {e a b f : Expr} {stack : List Frame}

theorem reduce_fresh {level : ℕ} (fresh : Fresh stack) (pos : 0 < level) :
    reduce level e stack = (e, stack) := by
  cases stack with
  | nil => rfl
  | cons frame stack =>
      have zero : frame.level = 0 := fresh frame rfl
      rw [reduce, if_neg (by omega)]

theorem reduce_reduce {low high : ℕ} (le : low ≤ high) (e : Expr) (stack : List Frame) :
    reduce low (reduce high e stack).1 (reduce high e stack).2 = reduce low e stack := by
  induction stack generalizing e with
  | nil => rfl
  | cons frame stack ih =>
      rw [reduce]
      split
      · rename_i tight
        rw [ih, reduce, if_pos (by omega)]
      · rfl

theorem Closed.unary (h : Closed ts e) : Unary ts e :=
  ⟨h.balanced, fun stack => ⟨e, stack, h.run stack, fun _ _ => rfl⟩⟩

theorem Unary.whole (h : Unary ts e) : Whole ts e := by
  refine ⟨h.balanced, fun stack fresh => ?_⟩
  obtain ⟨e', stack', run, held⟩ := h.run stack
  exact ⟨e', stack', run, by rw [held 1 (by decide), reduce_fresh fresh (by omega)]⟩

theorem Closed.whole (h : Closed ts e) : Whole ts e := h.unary.whole

theorem Whole.parse (h : Whole ts e) : parse ts = some e := by
  obtain ⟨e', stack', run, held⟩ := h.run [] (by simp [Fresh])
  rw [Python.parse, run]
  show State.result (.after e' stack') = some e
  rw [State.result, held]

theorem Closed.of_token {t : Token} (flat : Balanced [t])
    (h : ∀ stack, readOperand stack t = some (.after e stack)) : Closed [t] e := by
  refine ⟨flat, fun stack => ?_⟩
  rw [List.foldlM_cons]
  show (readOperand stack t).bind (List.foldlM step · []) = _
  rw [h stack]
  rfl

theorem Closed.name (s : String) : Closed [.name s] (.name s) :=
  .of_token (.token (by simp) (by simp)) fun _ => rfl

theorem Closed.text (s : String) : Closed [.text s] (.text s) :=
  .of_token (.token (by simp) (by simp)) fun _ => rfl

theorem Closed.number (n : ℕ) : Closed [.number n] (.number n) :=
  .of_token (.token (by simp) (by simp)) fun _ => rfl

theorem Closed.attr (h : Closed ts e) (s : String) :
    Closed (ts ++ [.mark .dot, .name s]) (.attr e s) := by
  refine ⟨h.balanced.append (.of_flat (by simp)), fun stack => ?_⟩
  rw [List.foldlM_append, h.run stack]
  rfl

theorem Whole.paren (h : Whole ts e) :
    Closed (.mark .openRound :: ts ++ [.mark .closeRound]) e := by
  refine ⟨h.balanced.wrap, fun stack => ?_⟩
  obtain ⟨e', stack', run, held⟩ := h.run (.paren :: stack) (by simp [Fresh, Frame.level])
  rw [List.cons_append, List.foldlM_cons]
  show (ts ++ [_]).foldlM step (.operand (.paren :: stack)) = _
  rw [List.foldlM_append, run]
  show (closeRound (reduce 1 e' stack').1 (reduce 1 e' stack').2).bind
    (List.foldlM step · []) = _
  rw [held]
  rfl

theorem Unary.invert (h : Unary ts e) : Unary (.mark .tilde :: ts) (.invert e) := by
  refine ⟨.append (.of_flat (by simp) : Balanced [.mark .tilde]) h.balanced, fun stack => ?_⟩
  obtain ⟨e', stack', run, held⟩ := h.run (.invert :: stack)
  refine ⟨e', stack', ?_, fun level le => ?_⟩
  · rw [List.foldlM_cons]
    exact run
  · rw [held level le, reduce, if_pos (show level ≤ Frame.level .invert from le)]
    rfl

theorem Unary.neg (h : Unary ts e) : Unary (.mark .minus :: ts) (.neg e) := by
  refine ⟨.append (.of_flat (by simp) : Balanced [.mark .minus]) h.balanced, fun stack => ?_⟩
  obtain ⟨e', stack', run, held⟩ := h.run (.neg :: stack)
  refine ⟨e', stack', ?_, fun level le => ?_⟩
  · rw [List.foldlM_cons]
    exact run
  · rw [held level le, reduce, if_pos (show level ≤ Frame.level .neg from le)]
    rfl

theorem Whole.compare (op : Comparison) (ha : Closed ts a) (hb : Unary us b) :
    Whole (ts ++ .mark (.compare op) :: us) (.compare op a b) := by
  refine ⟨ha.balanced.append (.append (.of_flat (by simp) : Balanced [.mark (.compare op)])
    hb.balanced), fun stack fresh => ?_⟩
  obtain ⟨e', stack', run, held⟩ := hb.run (.compare op a :: stack)
  have between : readAfter a stack (.mark (.compare op)) =
      some (.operand (.compare op a :: stack)) := by
    rw [readAfter, reduce_fresh fresh (by omega)]
    cases stack with
    | nil => rfl
    | cons frame stack =>
        have zero : frame.level = 0 := fresh frame rfl
        cases frame with
        | compare op' a' => cases zero
        | _ => rfl
  refine ⟨e', stack', ?_, ?_⟩
  · rw [List.foldlM_append, ha.run stack]
    show (us.foldlM step =<< readAfter a stack (.mark (.compare op))) = _
    rw [between]
    exact run
  · rw [held 1 (by decide), reduce, if_pos (show 1 ≤ Frame.level (.compare op a) from le_rfl),
      reduce_fresh fresh (by omega)]
    rfl

theorem intercalate_cons {α : Type} (sep piece : List α) (pieces : List (List α)) :
    sep.intercalate (piece :: pieces) = piece ++ pieces.flatMap (sep ++ ·) := by
  induction pieces generalizing piece with
  | nil => simp [List.intercalate]
  | cons next pieces ih =>
      rw [List.intercalate_cons_cons, ih, List.flatMap_cons, List.append_assoc, List.append_assoc]

theorem Binary.level_pos (op : Binary) : 0 < op.level := by cases op <;> decide

theorem foldlM_chain (op : Binary) {pieces : List (List Token)} {es : List Expr}
    (h : List.Forall₂ Closed pieces es) {e acc : Expr} {under : List Frame} (fresh : Fresh stack)
    (held : reduce op.level e under = (acc, stack)) :
    ∃ e' under', (pieces.flatMap ([.mark (.binary op)] ++ ·)).foldlM step (.after e under) =
        some (.after e' under') ∧
      reduce op.level e' under' = (es.foldl (.binary op) acc, stack) := by
  induction h generalizing e acc under with
  | nil => exact ⟨e, under, rfl, held⟩
  | @cons piece b pieces es closed _ ih =>
      have next : reduce op.level b (.binary op acc :: stack) = (.binary op acc b, stack) := by
        rw [reduce, if_pos (show op.level ≤ Frame.level (.binary op acc) from le_rfl),
          reduce_fresh fresh op.level_pos]
        rfl
      obtain ⟨e', under', run, last⟩ := ih next
      refine ⟨e', under', ?_, last⟩
      have first : step (.after e under) (.mark (.binary op)) =
          some (.operand (.binary op acc :: stack)) := by
        rw [step, readAfter, held]
      rw [List.flatMap_cons, List.append_assoc, List.cons_append, List.nil_append,
        List.foldlM_cons, first]
      show (piece ++ _).foldlM step (.operand (.binary op acc :: stack)) = _
      rw [List.foldlM_append, closed.run]
      exact run

theorem Balanced.flatMap {pieces : List (List Token)} (sep : Token)
    (flat : Balanced [sep]) (h : ∀ piece ∈ pieces, Balanced piece) :
    Balanced (pieces.flatMap ([sep] ++ ·)) := by
  induction pieces with
  | nil => exact .nil
  | cons piece pieces ih =>
      rw [List.flatMap_cons]
      exact .append (.append flat (h piece List.mem_cons_self))
        (ih fun x hx => h x (List.mem_cons_of_mem _ hx))

theorem balanced_of_forall₂ {P : List Token → Expr → Prop} {pieces : List (List Token)}
    {es : List Expr} (h : List.Forall₂ P pieces es) (balanced : ∀ ts e, P ts e → Balanced ts) :
    ∀ piece ∈ pieces, Balanced piece := by
  induction h with
  | nil => simp
  | cons first _ ih => exact List.forall_mem_cons.mpr ⟨balanced _ _ first, ih⟩

theorem Whole.chain (op : Binary) {pieces : List (List Token)} {es : List Expr}
    (first : Closed ts e) (h : List.Forall₂ Closed pieces es) :
    Whole ([.mark (.binary op)].intercalate (ts :: pieces)) (es.foldl (.binary op) e) := by
  rw [intercalate_cons]
  refine ⟨first.balanced.append (.flatMap _ (.of_flat (by simp))
    (balanced_of_forall₂ h fun _ _ => Closed.balanced)), fun stack fresh => ?_⟩
  obtain ⟨e', under', run, held⟩ := foldlM_chain op h fresh (reduce_fresh fresh op.level_pos)
  refine ⟨e', under', ?_, ?_⟩
  · rw [List.foldlM_append, first.run stack]
    exact run
  · have all := reduce_reduce (show 1 ≤ op.level from op.level_pos) e' under'
    rw [held] at all
    rw [← all, reduce_fresh fresh (by omega)]

theorem foldlM_opened {e' : Expr} {stack' : List Frame}
    (run : ts.foldlM step (.operand stack) = some (.after e' stack')) :
    ts.foldlM step (.opened stack) = some (.after e' stack') := by
  cases ts with
  | nil => cases run
  | cons t ts =>
      rw [List.foldlM_cons] at run ⊢
      have same : step (.opened stack) t = (readOperand stack t).orElse fun _ => closeEmpty stack t
        := rfl
      cases first : readOperand stack t with
      | none =>
          rw [show step (.operand stack) t = none from first] at run
          cases run
      | some state =>
          rw [show step (.operand stack) t = some state from first] at run
          rw [same, first]
          exact run

theorem foldlM_items {pieces : List (List Token)} {es : List Expr}
    (h : List.Forall₂ Whole pieces es) {e e' : Expr} {before : List Expr} {under : List Frame}
    (held : reduce 1 e' under = (e, .items before :: stack)) :
    (pieces.flatMap ([Token.mark .comma] ++ ·) ++ [Token.mark .closeSquare]).foldlM step
        (.after e' under) =
      some (.after (.list (before ++ e :: es)) stack) := by
  induction h generalizing e e' before under with
  | nil =>
      show (closeSquare (reduce 1 e' under).1 (reduce 1 e' under).2).bind
        (List.foldlM step · []) = _
      rw [held]
      rfl
  | @cons piece b pieces es whole _ ih =>
      obtain ⟨b', under', run, next⟩ :=
        whole.run (.items (before ++ [e]) :: stack) (by simp [Fresh, Frame.level])
      have comma : step (.after e' under) (.mark .comma) =
          some (.opened (.items (before ++ [e]) :: stack)) := by
        rw [step, readAfter, held]
        rfl
      have rest := ih next
      rw [List.append_assoc, List.cons_append, List.nil_append] at rest
      rw [List.flatMap_cons, List.append_assoc, List.append_assoc, List.cons_append,
        List.nil_append, List.foldlM_cons, comma]
      show (piece ++ _).foldlM step (.opened _) = _
      rw [List.foldlM_append, foldlM_opened run]
      exact rest

theorem Closed.list {pieces : List (List Token)} {es : List Expr} (first : Whole ts e)
    (h : List.Forall₂ Whole pieces es) :
    Closed (.mark .openSquare :: [.mark .comma].intercalate (ts :: pieces) ++
      [.mark .closeSquare]) (.list (e :: es)) := by
  rw [intercalate_cons]
  refine ⟨.append (.append (.of_flat (by simp) : Balanced [.mark .openSquare])
    (first.balanced.append (.flatMap _ (.of_flat (by simp))
      (balanced_of_forall₂ h fun _ _ => Whole.balanced)))) (.of_flat (by simp)),
    fun stack => ?_⟩
  obtain ⟨e', under, run, held⟩ := first.run (.items [] :: stack) (by simp [Fresh, Frame.level])
  rw [List.cons_append, List.foldlM_cons]
  show (ts ++ _ ++ _).foldlM step (.opened (.items [] :: stack)) = _
  rw [List.append_assoc, List.foldlM_append, foldlM_opened run]
  exact foldlM_items h held

theorem Closed.call (hf : Closed ts f) (harg : Whole us a) :
    Closed (ts ++ .mark .openRound :: us ++ [.mark .closeRound]) (.call f [a]) := by
  rw [List.append_assoc]
  refine ⟨hf.balanced.append harg.balanced.wrap, fun stack => ?_⟩
  obtain ⟨e', under, run, held⟩ := harg.run (.args f [] :: stack) (by simp [Fresh, Frame.level])
  rw [List.foldlM_append, hf.run stack]
  show (us ++ _).foldlM step (.opened (.args f [] :: stack)) = _
  rw [List.foldlM_append, foldlM_opened run]
  show (closeRound (reduce 1 e' under).1 (reduce 1 e' under).2).bind
    (List.foldlM step · []) = _
  rw [held]
  rfl

theorem Closed.callEmpty (hf : Closed ts f) :
    Closed (ts ++ [.mark .openRound, .mark .closeRound]) (.call f []) := by
  refine ⟨hf.balanced.append (.wrap .nil), fun stack => ?_⟩
  rw [List.foldlM_append, hf.run stack]
  rfl

end Python
