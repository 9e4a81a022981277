import FeatureGen.Lib.Text

/-! # Python texts and tokens

`repr` of a text and of an integer, and the tokens of a Python expression: names, texts,
numbers and the marks of calls, lists and operators. Reading is character by character.
Source that holds anything else is not read.
-/

namespace Python

/-- Some hexadecimal digits of a number, the lowest last. -/
def hexDigits : ℕ → ℕ → List Char
  | 0, _ => []
  | k + 1, n => hexDigits k (n / 16) ++ [Nat.digitChar (n % 16)]

/-- One character of a `repr`. -/
def reprChar (printable : Char → Bool) (quote c : Char) : List Char :=
  if c = quote ∨ c = '\\' then ['\\', c]
  else if c = '\t' then ['\\', 't']
  else if c = '\n' then ['\\', 'n']
  else if c = '\r' then ['\\', 'r']
  else if c.toNat < 32 ∨ c.toNat = 127 then '\\' :: 'x' :: hexDigits 2 c.toNat
  else if c.toNat < 127 ∨ printable c then [c]
  else if c.toNat < 256 then '\\' :: 'x' :: hexDigits 2 c.toNat
  else if c.toNat < 65536 then '\\' :: 'u' :: hexDigits 4 c.toNat
  else '\\' :: 'U' :: hexDigits 8 c.toNat

/-- The quote that `repr` chooses. -/
def quoteOf (cs : List Char) : Char := if '\'' ∈ cs ∧ '"' ∉ cs then '"' else '\''

/-- `repr` of a text. -/
def repr (printable : Char → Bool) (s : String) : List Char :=
  let quote := quoteOf s.toList
  quote :: s.toList.flatMap (reprChar printable quote) ++ [quote]

/-- `repr` of an integer. -/
def reprInt (n : ℤ) : List Char :=
  if n < 0 then '-' :: Nat.toDigits 10 n.natAbs else Nat.toDigits 10 n.natAbs

inductive Comparison where
  | eq
  | ne
  | lt
  | le
  | gt
  | ge
  deriving DecidableEq

/-- `&` and `|`. -/
inductive Binary where
  | both
  | either
  deriving DecidableEq

inductive Mark where
  | openRound
  | closeRound
  | openSquare
  | closeSquare
  | comma
  | dot
  | tilde
  | minus
  | binary (op : Binary)
  | compare (op : Comparison)
  deriving DecidableEq

inductive Token where
  | name (s : String)
  | text (s : String)
  | number (n : ℕ)
  | mark (m : Mark)
  deriving DecidableEq

/-- The words that are no names. `True` and `False` are read as names. -/
def keywords : List String :=
  ["None", "and", "as", "assert", "async", "await", "break", "class", "continue", "def", "del",
    "elif", "else", "except", "finally", "for", "from", "global", "if", "import", "in", "is",
    "lambda", "nonlocal", "not", "or", "pass", "raise", "return", "try", "while", "with", "yield"]

def startsName (c : Char) : Bool := c.isAlpha || c = '_'

def inName (c : Char) : Bool := c.isAlphanum || c = '_'

def isQuote (c : Char) : Bool := c = '\'' || c = '"'

/-- The marks of one character that begin no longer one. -/
def single : Char → Option Mark
  | '(' => some .openRound
  | ')' => some .closeRound
  | '[' => some .openSquare
  | ']' => some .closeSquare
  | ',' => some .comma
  | '.' => some .dot
  | '~' => some .tilde
  | '-' => some .minus
  | '&' => some (.binary .both)
  | '|' => some (.binary .either)
  | _ => none

/-- A comparison that ends in `=`. -/
def withEquals : Char → Option Comparison
  | '=' => some .eq
  | '!' => some .ne
  | '<' => some .le
  | '>' => some .ge
  | _ => none

def alone : Char → Option Comparison
  | '<' => some .lt
  | '>' => some .gt
  | _ => none

/-- What the next character goes on with. -/
inductive Mode where
  | idle
  | word (cs : List Char)
  | digits (cs : List Char)
  | compare (c : Char)
  | text (quote : Char) (cs : List Char)
  | escape (quote : Char) (cs : List Char)
  | hex (quote : Char) (cs : List Char) (left value : ℕ)
  | closed

/-- The tokens read, and the mode. -/
structure Reading where
  tokens : List Token
  mode : Mode

def wordToken (cs : List Char) : Option Token :=
  if keywords.contains (String.ofList cs) then none else some (.name (String.ofList cs))

/-- A number, without leading zeros. -/
def numberToken (cs : List Char) : Option Token :=
  if cs.head? = some '0' ∧ cs.length ≠ 1 then none else some (.number (Text.natOf cs))

/-- A character where a token may begin. -/
def opened (ts : List Token) (c : Char) : Option Reading :=
  if c = ' ' then some ⟨ts, .idle⟩
  else if startsName c then some ⟨ts, .word [c]⟩
  else if c.isDigit then some ⟨ts, .digits [c]⟩
  else if isQuote c then some ⟨ts, .text c []⟩
  else if c = '=' ∨ c = '!' ∨ c = '<' ∨ c = '>' then some ⟨ts, .compare c⟩
  else (single c).map fun m => ⟨ts ++ [.mark m], .idle⟩

/-- A character inside a text. -/
def inText (ts : List Token) (quote : Char) (cs : List Char) (c : Char) : Option Reading :=
  if c = quote then some ⟨ts ++ [.text (String.ofList cs)], .closed⟩
  else if c = '\\' then some ⟨ts, .escape quote cs⟩
  else if c = '\n' ∨ c = '\r' ∨ c.toNat = 0 then none
  else some ⟨ts, .text quote (cs ++ [c])⟩

/-- A character after a backslash. -/
def inEscape (ts : List Token) (quote : Char) (cs : List Char) (c : Char) : Option Reading :=
  if c = '\\' ∨ isQuote c then some ⟨ts, .text quote (cs ++ [c])⟩
  else if c = 't' then some ⟨ts, .text quote (cs ++ ['\t'])⟩
  else if c = 'n' then some ⟨ts, .text quote (cs ++ ['\n'])⟩
  else if c = 'r' then some ⟨ts, .text quote (cs ++ ['\r'])⟩
  else if c = 'x' then some ⟨ts, .hex quote cs 2 0⟩
  else if c = 'u' then some ⟨ts, .hex quote cs 4 0⟩
  else if c = 'U' then some ⟨ts, .hex quote cs 8 0⟩
  else none

/-- The value of a hexadecimal digit. -/
def hexValue (c : Char) : Option ℕ :=
  if '0' ≤ c ∧ c ≤ '9' then some (c.toNat - '0'.toNat)
  else if 'a' ≤ c ∧ c ≤ 'f' then some (c.toNat - 'a'.toNat + 10)
  else if 'A' ≤ c ∧ c ≤ 'F' then some (c.toNat - 'A'.toNat + 10)
  else none

/-- A character of an escape by number: at its last digit the number is a character. -/
def inHex (ts : List Token) (quote : Char) (cs : List Char) (left value : ℕ) (c : Char) :
    Option Reading :=
  (hexValue c).bind fun digit =>
    let value' := 16 * value + digit
    if 1 < left then some ⟨ts, .hex quote cs (left - 1) value'⟩
    else if value'.isValidChar then some ⟨ts, .text quote (cs ++ [Char.ofNat value'])⟩
    else none

/-- The next character. -/
def advance (r : Reading) (c : Char) : Option Reading :=
  match r.mode with
  | .idle => opened r.tokens c
  | .word cs =>
      if inName c then some ⟨r.tokens, .word (cs ++ [c])⟩
      else if isQuote c then none
      else (wordToken cs).bind fun t => opened (r.tokens ++ [t]) c
  | .digits cs =>
      if c.isDigit then some ⟨r.tokens, .digits (cs ++ [c])⟩
      else if inName c ∨ c = '.' then none
      else (numberToken cs).bind fun t => opened (r.tokens ++ [t]) c
  | .compare m =>
      if c = '=' then (withEquals m).map fun op => ⟨r.tokens ++ [.mark (.compare op)], .idle⟩
      else (alone m).bind fun op => opened (r.tokens ++ [.mark (.compare op)]) c
  | .text quote cs => inText r.tokens quote cs c
  | .escape quote cs => inEscape r.tokens quote cs c
  | .hex quote cs left value => inHex r.tokens quote cs left value c
  | .closed => if isQuote c then none else opened r.tokens c

/-- The end of the source. -/
def finish (r : Reading) : Option (List Token) :=
  match r.mode with
  | .idle => some r.tokens
  | .word cs => (wordToken cs).map fun t => r.tokens ++ [t]
  | .digits cs => (numberToken cs).map fun t => r.tokens ++ [t]
  | .compare m => (alone m).map fun op => r.tokens ++ [.mark (.compare op)]
  | .closed => some r.tokens
  | _ => none

def tokenize (source : List Char) : Option (List Token) :=
  (source.foldlM advance ⟨[], .idle⟩).bind finish

/-- The piece is read as these tokens, whatever was read before. -/
def Scans (cs : List Char) (ts : List Token) : Prop :=
  ∀ out, cs.foldlM advance ⟨out, .idle⟩ = some ⟨out ++ ts, .idle⟩

/-- What may follow a piece of source directly. -/
def closers : List Char := [')', ']', ',']

/-- The same at the end and before what may follow. -/
structure Settles (r : Reading) (ts : List Token) : Prop where
  finish : finish r = some ts
  closing : ∀ c ∈ closers, advance r c = advance ⟨ts, .idle⟩ c

/-- The piece is read as these tokens, once it is followed by a mark or the end. -/
def Spells (cs : List Char) (ts : List Token) : Prop :=
  ∀ out, ∃ r, cs.foldlM advance ⟨out, .idle⟩ = some r ∧ Settles r (out ++ ts)

variable {cs ds : List Char} {ts us : List Token}

theorem Settles.idle (ts : List Token) : Settles ⟨ts, .idle⟩ ts := ⟨rfl, fun _ _ => rfl⟩

theorem Scans.spells (h : Scans cs ts) : Spells cs ts :=
  fun out => ⟨_, h out, Settles.idle _⟩

theorem Scans.nil : Scans [] [] := by
  intro out
  rw [List.append_nil]
  rfl

theorem Scans.append (h : Scans cs ts) (h' : Scans ds us) : Scans (cs ++ ds) (ts ++ us) := by
  intro out
  rw [List.foldlM_append, h out, ← List.append_assoc]
  exact h' (out ++ ts)

theorem Scans.append_spells (h : Scans cs ts) (h' : Spells ds us) :
    Spells (cs ++ ds) (ts ++ us) := by
  intro out
  obtain ⟨r, hr, settles⟩ := h' (out ++ ts)
  refine ⟨r, ?_, ?_⟩
  · rw [List.foldlM_append, h out]
    exact hr
  · rw [← List.append_assoc]
    exact settles

theorem Spells.close (h : Spells cs ts) {c : Char} (hc : c ∈ closers) (h' : Scans [c] us) :
    Scans (cs ++ [c]) (ts ++ us) := by
  intro out
  obtain ⟨r, hr, settles⟩ := h out
  have next := h' (out ++ ts)
  rw [List.foldlM_cons] at next
  have last : [c].foldlM advance r = some ⟨out ++ (ts ++ us), .idle⟩ := by
    rw [List.foldlM_cons, settles.closing c hc, ← List.append_assoc]
    exact next
  rw [List.foldlM_append, hr]
  exact last

theorem Scans.of_foldl (h : ∀ out, cs.foldlM advance ⟨out, .idle⟩ =
    some ⟨ts.foldl (fun read t => read ++ [t]) out, .idle⟩) : Scans cs ts := by
  have appended (ts out : List Token) : ts.foldl (fun read t => read ++ [t]) out = out ++ ts := by
    induction ts generalizing out with
    | nil => exact (List.append_nil out).symm
    | cons t ts ih => rw [List.foldl_cons, ih, List.append_assoc, List.singleton_append]
  intro out
  rw [h out, appended]

theorem spells_intercalate {P : List Char → List Token → Prop} {sep : List Char}
    {us : List Token} (alone : ∀ {cs ts}, P cs ts → Spells cs ts)
    (followed : ∀ {cs ts}, P cs ts → Scans (cs ++ sep) (ts ++ us))
    {pieces : List (List Char)} {tss : List (List Token)} (h : List.Forall₂ P pieces tss)
    (nonempty : pieces ≠ []) : Spells (sep.intercalate pieces) (us.intercalate tss) := by
  induction h with
  | nil => exact absurd rfl nonempty
  | cons first rest ih =>
      cases rest with
      | nil =>
          rw [List.intercalate_singleton, List.intercalate_singleton]
          exact alone first
      | cons next rest =>
          rw [List.intercalate_cons_cons, List.intercalate_cons_cons]
          exact (followed first).append_spells (ih (by simp))

theorem Spells.tokenize (h : Spells cs ts) : tokenize cs = some ts := by
  obtain ⟨r, hr, settles⟩ := h []
  rw [Python.tokenize, hr]
  exact settles.finish

section

variable {out : List Token} {quote : Char}

theorem hexValue_digitChar {d : ℕ} (h : d < 16) : hexValue (Nat.digitChar d) = some d := by
  interval_cases d <;> decide

theorem foldlM_hexDigits (k left v n : ℕ) (hleft : 1 ≤ left) (hn : n < 16 ^ k) :
    (hexDigits k n).foldlM advance ⟨out, .hex quote cs (k + left) v⟩ =
      some ⟨out, .hex quote cs left (16 ^ k * v + n)⟩ := by
  induction k generalizing left n with
  | zero =>
      have zero : n = 0 := by omega
      rw [zero, Nat.pow_zero, Nat.one_mul, Nat.zero_add]
      rfl
  | succ k ih =>
      have small : n / 16 < 16 ^ k := by
        rw [Nat.pow_succ] at hn
        omega
      have before := ih (left + 1) (n / 16) (by omega) small
      rw [show k + (left + 1) = k + 1 + left by omega] at before
      have value : 16 * (16 ^ k * v + n / 16) + n % 16 = 16 ^ (k + 1) * v + n := by
        rw [Nat.pow_succ, Nat.mul_add, Nat.mul_right_comm, Nat.mul_comm 16 (16 ^ k * v),
          Nat.mul_right_comm]
        omega
      have last : advance ⟨out, .hex quote cs (left + 1) (16 ^ k * v + n / 16)⟩
          (Nat.digitChar (n % 16)) = some ⟨out, .hex quote cs left (16 ^ (k + 1) * v + n)⟩ := by
        simp only [advance, inHex, hexValue_digitChar (Nat.mod_lt n (by omega)), Option.bind_some,
          if_pos (show 1 < left + 1 by omega), Nat.add_sub_cancel, value]
      rw [hexDigits, List.foldlM_append, before]
      simp only [Option.bind_eq_bind, Option.bind_some, List.foldlM_cons, List.foldlM_nil, last]
      rfl

theorem foldlM_escaped (k : ℕ) (c : Char) (hc : c.toNat < 16 ^ (k + 1)) :
    (hexDigits (k + 1) c.toNat).foldlM advance ⟨out, .hex quote cs (k + 1) 0⟩ =
      some ⟨out, .text quote (cs ++ [c])⟩ := by
  have small : c.toNat / 16 < 16 ^ k := by
    rw [Nat.pow_succ] at hc
    omega
  have before : (hexDigits k (c.toNat / 16)).foldlM advance ⟨out, .hex quote cs (k + 1) 0⟩ =
      some ⟨out, .hex quote cs 1 (16 ^ k * 0 + c.toNat / 16)⟩ :=
    foldlM_hexDigits k 1 0 (c.toNat / 16) le_rfl small
  have value : 16 * (16 ^ k * 0 + c.toNat / 16) + c.toNat % 16 = c.toNat := by omega
  have last : advance ⟨out, .hex quote cs 1 (16 ^ k * 0 + c.toNat / 16)⟩
      (Nat.digitChar (c.toNat % 16)) = some ⟨out, .text quote (cs ++ [c])⟩ := by
    simp only [advance, inHex, hexValue_digitChar (Nat.mod_lt c.toNat (by omega)),
      Option.bind_some, if_neg (show ¬ 1 < 1 by omega), value,
      if_pos (show c.toNat.isValidChar from c.valid), Char.ofNat_toNat]
  rw [hexDigits, List.foldlM_append, before]
  simp only [Option.bind_eq_bind, Option.bind_some, List.foldlM_cons, List.foldlM_nil, last]
  rfl

theorem foldlM_reprChar (printable : Char → Bool) (hquote : isQuote quote = true) (c : Char) :
    (reprChar printable quote c).foldlM advance ⟨out, .text quote cs⟩ =
      some ⟨out, .text quote (cs ++ [c])⟩ := by
  have escape : quote ≠ '\\' := by
    rintro rfl
    cases hquote
  have backslash : advance ⟨out, .text quote cs⟩ '\\' = some ⟨out, .escape quote cs⟩ := by
    simp [advance, inText, Ne.symm escape]
  have numbered (x : Char) (k : ℕ) (small : c.toNat < 16 ^ (k + 1))
      (hx : advance ⟨out, .escape quote cs⟩ x = some ⟨out, .hex quote cs (k + 1) 0⟩) :
      ('\\' :: x :: hexDigits (k + 1) c.toNat).foldlM advance ⟨out, .text quote cs⟩ =
        some ⟨out, .text quote (cs ++ [c])⟩ := by
    simp only [List.foldlM_cons, backslash, hx, Option.bind_eq_bind, Option.bind_some]
    exact foldlM_escaped k c small
  have escaped (x : Char) (hx : inEscape out quote cs x = some ⟨out, .text quote (cs ++ [c])⟩) :
      ['\\', x].foldlM advance ⟨out, .text quote cs⟩ = some ⟨out, .text quote (cs ++ [c])⟩ := by
    rw [List.foldlM_cons, backslash]
    show (inEscape out quote cs x).bind (List.foldlM advance · []) = _
    rw [hx]
    rfl
  have below : c.toNat < 1114112 := by
    have valid : c.toNat.isValidChar := c.valid
    rcases valid with valid | valid <;> omega
  unfold reprChar
  split
  · rename_i special
    have read : c = '\\' ∨ isQuote c = true := by
      rcases special with rfl | rfl
      · exact .inr hquote
      · exact .inl rfl
    apply escaped
    rw [inEscape, if_pos read]
  · rename_i special
    split
    · rename_i tab
      exact escaped 't' (tab ▸ rfl)
    · split
      · rename_i newline
        exact escaped 'n' (newline ▸ rfl)
      · split
        · rename_i carriage
          exact escaped 'r' (carriage ▸ rfl)
        · rename_i newline carriage
          have hexed : advance ⟨out, .escape quote cs⟩ 'x' = some ⟨out, .hex quote cs 2 0⟩ := rfl
          split
          · rename_i control
            exact numbered 'x' 1 (by omega) hexed
          · rename_i control
            split
            · have plain : ¬ (c = '\n' ∨ c = '\r' ∨ c.toNat = 0) := by
                rintro (h | h | h)
                · exact newline h
                · exact carriage h
                · omega
              push Not at special
              simp only [List.foldlM_cons, List.foldlM_nil, advance, inText, if_neg special.1,
                if_neg special.2, if_neg plain, Option.bind_eq_bind, Option.bind_some]
              rfl
            · split
              · exact numbered 'x' 1 (by omega) hexed
              · split
                · exact numbered 'u' 3 (by omega) rfl
                · exact numbered 'U' 7 (by omega) rfl

theorem isQuote_quoteOf (cs : List Char) : isQuote (quoteOf cs) = true := by
  unfold quoteOf
  split <;> rfl

theorem spells_repr (printable : Char → Bool) (s : String) :
    Spells (repr printable s) [.text s] := by
  have hquote := isQuote_quoteOf s.toList
  generalize hq : quoteOf s.toList = quote at hquote
  have chars (out : List Token) (cs before : List Char) :
      (cs.flatMap (reprChar printable quote)).foldlM advance ⟨out, .text quote before⟩ =
        some ⟨out, .text quote (before ++ cs)⟩ := by
    induction cs generalizing before with
    | nil =>
        rw [List.append_nil]
        rfl
    | cons c cs ih =>
        rw [List.flatMap_cons, List.foldlM_append, foldlM_reprChar printable hquote c,
          show before ++ c :: cs = before ++ [c] ++ cs by simp]
        exact ih (before ++ [c])
  intro out
  have first : advance ⟨out, .idle⟩ quote = some ⟨out, .text quote []⟩ := by
    have mark : quote = '\'' ∨ quote = '"' := by simpa [isQuote] using hquote
    rcases mark with rfl | rfl <;> rfl
  have last : advance ⟨out, .text quote s.toList⟩ quote =
      some ⟨out ++ [.text s], .closed⟩ := by
    simp [advance, inText]
  refine ⟨⟨out ++ [.text s], .closed⟩, ?_, rfl, ?_⟩
  · simp only [repr, hq, List.cons_append, List.foldlM_cons, first, List.foldlM_append,
      Option.bind_eq_bind, Option.bind_some, chars, List.nil_append, last, List.foldlM_nil]
    rfl
  · intro c hc
    simp only [closers, List.mem_cons, List.not_mem_nil, or_false] at hc
    rcases hc with rfl | rfl | rfl <;> rfl

end

theorem natOf_toDigits (n : ℕ) : Text.natOf (Nat.toDigits 10 n) = n := by
  have read := Nat.ofDigitChars_ten_toDigits (n := n)
  rw [Nat.ofDigitChars_eq_foldl] at read
  exact read

theorem head?_toDigits {n : ℕ} (pos : 0 < n) : (Nat.toDigits 10 n).head? ≠ some '0' := by
  induction n using Nat.strong_induction_on with
  | _ n ih =>
      by_cases small : n < 10
      · rw [Nat.toDigits_of_lt_base small]
        interval_cases n <;> decide
      · have earlier := ih (n / 10) (by omega) (by omega)
        rw [Nat.toDigits_of_base_le (by omega) (by omega)]
        cases digits : Nat.toDigits 10 (n / 10) with
        | nil => exact absurd digits Nat.toDigits_ne_nil
        | cons d ds =>
            rw [digits] at earlier
            exact earlier

theorem numberToken_toDigits (n : ℕ) : numberToken (Nat.toDigits 10 n) = some (.number n) := by
  have fine : ¬ ((Nat.toDigits 10 n).head? = some '0' ∧ (Nat.toDigits 10 n).length ≠ 1) := by
    rintro ⟨head, long⟩
    by_cases zero : n = 0
    · rw [zero] at long
      exact long rfl
    · exact head?_toDigits (by omega) head
  rw [numberToken, if_neg fine, natOf_toDigits]

theorem opened_digit {d : Char} (hd : d.isDigit = true) (out : List Token) :
    opened out d = some ⟨out, .digits [d]⟩ := by
  have range : 48 ≤ d.toNat ∧ d.toNat ≤ 57 := by
    simpa [Char.isDigit, UInt32.le_iff_toNat_le] using hd
  rw [← Char.ofNat_toNat d]
  generalize d.toNat = n at range
  obtain ⟨low, high⟩ := range
  interval_cases n <;> rfl

theorem spells_toDigits (n : ℕ) : Spells (Nat.toDigits 10 n) [.number n] := by
  intro out
  refine ⟨⟨out, .digits (Nat.toDigits 10 n)⟩, ?_, ?_, ?_⟩
  · have digit {c : Char} (hc : c ∈ Nat.toDigits 10 n) : c.isDigit = true :=
      Nat.isDigit_of_mem_toDigits (by omega) (by omega) hc
    have more (ds before : List Char) (hds : ∀ d ∈ ds, d.isDigit = true) :
        ds.foldlM advance ⟨out, .digits before⟩ = some ⟨out, .digits (before ++ ds)⟩ := by
      induction ds generalizing before with
      | nil =>
          rw [List.append_nil]
          rfl
      | cons d ds ih =>
          have first : advance ⟨out, .digits before⟩ d = some ⟨out, .digits (before ++ [d])⟩ := by
            simp only [advance, if_pos (hds d List.mem_cons_self)]
          rw [List.foldlM_cons, first, show before ++ d :: ds = before ++ [d] ++ ds by simp]
          exact ih _ fun x hx => hds x (List.mem_cons_of_mem _ hx)
    cases digits : Nat.toDigits 10 n with
    | nil => exact absurd digits Nat.toDigits_ne_nil
    | cons d ds =>
        rw [digits] at digit
        have first : advance ⟨out, .idle⟩ d = some ⟨out, .digits [d]⟩ :=
          opened_digit (digit List.mem_cons_self) out
        rw [List.foldlM_cons, first]
        exact more ds [d] fun x hx => digit (List.mem_cons_of_mem _ hx)
  · simp only [finish, numberToken_toDigits]
    rfl
  · intro c hc
    simp only [closers, List.mem_cons, List.not_mem_nil, or_false] at hc
    rcases hc with rfl | rfl | rfl <;> simp only [advance, numberToken_toDigits] <;> rfl

/-- The tokens of an integer: a negative one is a number under a minus. -/
def intTokens (n : ℤ) : List Token :=
  if n < 0 then [.mark .minus, .number n.natAbs] else [.number n.natAbs]

theorem spells_reprInt (n : ℤ) : Spells (reprInt n) (intTokens n) := by
  have digits := spells_toDigits n.natAbs
  unfold reprInt intTokens
  split
  · have minus : Scans ['-'] [.mark .minus] := fun out => rfl
    exact minus.append_spells digits
  · exact digits

end Python
