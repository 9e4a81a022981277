import FeatureGen.Formula.FilterEquality
import FeatureGen.Formula.LeafChecks
import FeatureGen.Lib.PyTokens
import FeatureGen.Lib.TimeOfDay

/-! # How literals are spelled

Whether a literal's value has one spelling among those that the parser of its type
accepts, and what follows for the canonical form of filters and sets.
-/

namespace FeatureGen.Formula

open Checks Document KeySort

/-- The parser of the type accepts both strings and reads one value. -/
def SameValue (type : LiteralType) (a b : String) : Prop :=
  ∃ v path, parseTypedValue type a path = .ok v ∧ parseTypedValue type b path = .ok v

inductive SpelledAlike (type : LiteralType) : FilterNode → FilterNode → Prop
  | refl (f : FilterNode) : SpelledAlike type f f
  | trans {f g h : FilterNode} (fg : SpelledAlike type f g) (gh : SpelledAlike type g h) :
      SpelledAlike type f h
  | child (op : FilterBoolOp) (before after : List FilterNode) {f g : FilterNode}
      (h : SpelledAlike type f g) :
      SpelledAlike type (.bool op (before ++ f :: after)) (.bool op (before ++ g :: after))
  | literal (node : FilterPredicate) {a b : String} (h : SameValue type a b) :
      SpelledAlike type (.predicate { node with rightLiteral := some ⟨type, a⟩ })
        (.predicate { node with rightLiteral := some ⟨type, b⟩ })
  | member (node : FilterPredicate) (before after : List TypedLiteral) {a b : String}
      (h : SameValue type a b) :
      SpelledAlike type (.predicate { node with rightSet := some (before ++ ⟨type, a⟩ :: after) })
        (.predicate { node with rightSet := some (before ++ ⟨type, b⟩ :: after) })

/-- The filter passes the checks of an expression over that table. -/
def Admitted (tableRef : LogicalRef) (params : String → Option ParameterDecl)
    (node : FilterNode) : Prop :=
  ∃ count, checkFilterNode "filter" 1 tableRef params node = .ok count

/-- The accepted literals of the type are canonical: a value has one spelling, filters that
    differ only in spelling have one form, and a canonical set holds no value twice. -/
structure CanonicalSpelling (py : Primitives) (type : LiteralType) : Prop where
  strings : ∀ a b, SameValue type a b → a = b
  filters : ∀ tableRef params path f g, SpelledAlike type f g → Admitted tableRef params f →
    Admitted tableRef params g →
      (filterPlain py path f).toOption = (filterPlain py path g).toOption
  sets : ∀ members, ∃ literals,
    setPlain py members = plainList TypedLiteral.plain literals ∧
      literals.Pairwise fun x y => x.type = type → y.type = type →
        ¬ SameValue type x.value y.value

theorem digit_lt {c : Char} (h : c.isDigit) : c.toNat - '0'.toNat < 10 ∧ '0'.toNat ≤ c.toNat := by
  simp only [Char.isDigit, ge_iff_le, Bool.and_eq_true, decide_eq_true_eq,
    UInt32.le_iff_toNat_le] at h
  have lower : '0'.toNat ≤ c.toNat := h.1
  have upper : c.toNat ≤ '9'.toNat := h.2
  have nine : '9'.toNat = '0'.toNat + 9 := by decide
  omega

theorem natOf_injective {cs ds : List Char} (hcs : ∀ c ∈ cs, c.isDigit) (hds : ∀ d ∈ ds, d.isDigit)
    (length : cs.length = ds.length) (same : Text.natOf cs = Text.natOf ds) : cs = ds := by
  induction cs using List.reverseRecOn generalizing ds with
  | nil => exact (List.length_eq_zero_iff.mp length.symm).symm
  | append_singleton cs c ih =>
      cases ds using List.reverseRecOn with
      | nil => simp at length
      | append_singleton ds d =>
          rw [Calendar.TimeOfDay.natOf_append, Calendar.TimeOfDay.natOf_append] at same
          have hc := digit_lt (hcs c (by simp))
          have hd := digit_lt (hds d (by simp))
          have last : c.toNat = d.toNat := by omega
          have lengths : cs.length = ds.length := by simpa using length
          have front := ih (fun x hx => hcs x (by simp [hx])) (fun x hx => hds x (by simp [hx]))
            lengths (by omega)
          rw [front, Char.toNat_inj.mp last]

theorem parseDate_ok {a path : String} {v : TypedValue} (h : parseDate a path = .ok v) :
    ∃ year month day, a.toList = year ++ '-' :: (month ++ '-' :: day) ∧
      (year.length = 4 ∧ month.length = 2 ∧ day.length = 2) ∧
      (∀ c ∈ year ++ month ++ day, c.isDigit) ∧
      v = .date (Text.natOf year) (Text.natOf month) (Text.natOf day) := by
  unfold parseDate at h
  split at h
  · rename_i y₁ y₂ y₃ y₄ m₁ m₂ d₁ d₂ ha
    dsimp only at h
    split at h
    · simp at h
    · rename_i digits
      split at h
      · simp only [Except.ok.injEq] at h
        refine ⟨[y₁, y₂, y₃, y₄], [m₁, m₂], [d₁, d₂], ha, ⟨rfl, rfl, rfl⟩, ?_, h.symm⟩
        rw [not_not, Text.digits, decide_eq_true_eq] at digits
        exact List.all_eq_true.mp digits.2
      · simp at h
  · simp at h

theorem parseDate_inj {a b path : String} {v : TypedValue} (ha : parseDate a path = .ok v)
    (hb : parseDate b path = .ok v) : a = b := by
  obtain ⟨y, m, d, hay, la, da, rfl⟩ := parseDate_ok ha
  obtain ⟨y', m', d', hby, lb, db, same⟩ := parseDate_ok hb
  simp only [TypedValue.date.injEq] at same
  simp only [List.mem_append] at da db
  have year : y = y' := natOf_injective (fun c hc => da c (Or.inl (Or.inl hc)))
    (fun c hc => db c (Or.inl (Or.inl hc))) (la.1.trans lb.1.symm) same.1
  have month : m = m' := natOf_injective (fun c hc => da c (Or.inl (Or.inr hc)))
    (fun c hc => db c (Or.inl (Or.inr hc))) (la.2.1.trans lb.2.1.symm) same.2.1
  have day : d = d' := natOf_injective (fun c hc => da c (Or.inr hc))
    (fun c hc => db c (Or.inr hc)) (la.2.2.trans lb.2.2.symm) same.2.2
  apply String.toList_injective
  rw [hay, hby, year, month, day]

theorem eq_of_sameValue {type : LiteralType} (notInteger : type ≠ .integer)
    (notDecimal : type ≠ .decimal) {a b : String} (h : SameValue type a b) : a = b := by
  obtain ⟨v, path, ha, hb⟩ := h
  cases type with
  | string =>
      simp only [parseTypedValue, Except.ok.injEq] at ha hb
      rw [← hb] at ha
      simpa using ha
  | integer => exact absurd rfl notInteger
  | decimal => exact absurd rfl notDecimal
  | boolean =>
      simp only [parseTypedValue] at ha hb
      split_ifs at ha hb with ta tb fb fa tb fb
      · rw [ta, tb]
      · rw [← hb] at ha
        simp at ha
      · rw [← hb] at ha
        simp at ha
      · rw [fa, fb]
  | date => exact parseDate_inj ha hb

theorem SpelledAlike.eq {type : LiteralType} (one : ∀ a b, SameValue type a b → a = b)
    {f g : FilterNode} (h : SpelledAlike type f g) : f = g := by
  induction h with
  | refl => rfl
  | trans _ _ fg gh => exact fg.trans gh
  | child op before after _ ih => rw [ih]
  | literal node same => rw [one _ _ same]
  | member node before after same => rw [one _ _ same]

theorem nodup_canonicalSet (py : Primitives) (members : List TypedLiteral) :
    (canonicalSet py members).Nodup :=
  (perm_sortBy _ _).nodup_iff.mpr (nodup_lastByKey _)

theorem canonicalSpelling_of_strings (py : Primitives) {type : LiteralType}
    (one : ∀ a b, SameValue type a b → a = b) : CanonicalSpelling py type := by
  constructor
  · exact one
  · intro tableRef params path f g alike _ _
    rw [alike.eq one]
  · intro members
    refine ⟨canonicalSet py members, (plain_canonicalSet members).symm, ?_⟩
    apply (nodup_canonicalSet py members).imp
    intro x y differ hx hy same
    have values := one _ _ same
    apply differ
    cases x
    cases y
    simp_all

theorem sameValue_seven : SameValue .integer "7" "07" :=
  ⟨.integer 7, "", by decide, by decide⟩

theorem sameValue_half : SameValue .decimal "0.5" "0.50" := by
  refine ⟨.decimal (1 / 2), "", ?_, ?_⟩
  · decide +kernel
  · decide +kernel

/-- `digits / 10 ^ scale`, without a needless zero in front. -/
def spell (negative : Bool) (digits scale : ℕ) : String :=
  String.ofList ((if negative then ['-'] else []) ++ (Nat.toDigits 10 (digits / 10 ^ scale) ++
    if scale = 0 then [] else '.' :: Calendar.padded scale (digits % 10 ^ scale)))

/-- The digits have no needless zero in front, a fraction none at the end, and zero no sign. -/
def NormalSpelling (type : LiteralType) (value : String) : Prop :=
  match type with
  | .integer => ∃ negative digits, value = spell negative digits 0 ∧ (negative → digits ≠ 0)
  | .decimal => ∃ negative digits scale, value = spell negative digits scale ∧
      (negative → digits ≠ 0) ∧ (scale = 0 ∨ ¬ 10 ∣ digits)
  | .string | .boolean | .date => True

theorem natOf_append (cs ds : List Char) :
    Text.natOf (cs ++ ds) = Text.natOf cs * 10 ^ ds.length + Text.natOf ds := by
  induction ds using List.reverseRecOn with
  | nil => simp [Text.natOf]
  | append_singleton ds d ih =>
      rw [← List.append_assoc, Calendar.TimeOfDay.natOf_append, Calendar.TimeOfDay.natOf_append, ih,
        List.length_append, List.length_singleton, pow_succ]
      ring

theorem natOf_lt {cs : List Char} (hcs : ∀ c ∈ cs, c.isDigit) :
    Text.natOf cs < 10 ^ cs.length := by
  induction cs using List.reverseRecOn with
  | nil => simp [Text.natOf]
  | append_singleton cs c ih =>
      have front := ih fun x hx => hcs x (by simp [hx])
      have last := (digit_lt (hcs c (by simp))).1
      rw [Calendar.TimeOfDay.natOf_append, List.length_append, List.length_singleton, pow_succ]
      omega

theorem isDigit_toDigits {n : ℕ} : ∀ c ∈ Nat.toDigits 10 n, c.isDigit = true :=
  fun _ hc => Nat.isDigit_of_mem_toDigits (by omega) (by omega) hc

theorem unsigned_spell (negative : Bool) (digits scale : ℕ) :
    Text.unsigned (spell negative digits scale).toList =
      (negative, Nat.toDigits 10 (digits / 10 ^ scale) ++
        if scale = 0 then [] else '.' :: Calendar.padded scale (digits % 10 ^ scale)) := by
  rw [spell, String.toList_ofList]
  cases negative with
  | true => rfl
  | false =>
      cases hd : Nat.toDigits 10 (digits / 10 ^ scale) with
      | nil => exact absurd hd Nat.toDigits_ne_nil
      | cons d ds =>
          have digit : d.isDigit = true := isDigit_toDigits d (hd ▸ List.mem_cons_self)
          have unsigned : d ≠ '-' := by
            rintro rfl
            cases digit
          simp only [Bool.false_eq_true, if_false, List.nil_append, List.cons_append, Text.unsigned]
          split
          · rename_i signed
            exact absurd (List.cons.inj signed).1 unsigned
          · rfl

theorem parseInteger_spell {negative : Bool} {digits : ℕ} (path : String)
    (length : (Nat.toDigits 10 digits).length ≤ maxStrDigits) :
    parseInteger (spell negative digits 0) path =
      .ok (.integer (if negative then -(digits : ℤ) else digits)) := by
  have digital : Text.digits (Nat.toDigits 10 digits) = true := by
    rw [Text.digits, decide_eq_true_eq]
    exact ⟨Nat.toDigits_ne_nil, List.all_eq_true.mpr isDigit_toDigits⟩
  rw [parseInteger, unsigned_spell]
  simp [digital, Nat.not_lt.mpr length, Python.natOf_toDigits]

theorem span_digits {whole rest : List Char} (digits : ∀ c ∈ whole, c.isDigit = true)
    (stops : ∀ c ∈ rest.head?, c.isDigit = false) :
    (whole ++ rest).takeWhile Char.isDigit = whole ∧
      (whole ++ rest).dropWhile Char.isDigit = rest := by
  rw [List.takeWhile_append_of_pos digits, List.dropWhile_append_of_pos digits]
  cases rest with
  | nil => simp
  | cons c rest => simp [stops c rfl]

theorem parseDecimal_spell (negative : Bool) (digits scale : ℕ) (path : String) :
    parseDecimal (spell negative digits scale) path =
      .ok (.decimal (if negative then -(digits / 10 ^ scale : ℚ) else digits / 10 ^ scale)) := by
  have whole : Text.digits (Nat.toDigits 10 (digits / 10 ^ scale)) = true := by
    rw [Text.digits, decide_eq_true_eq]
    exact ⟨Nat.toDigits_ne_nil, List.all_eq_true.mpr isDigit_toDigits⟩
  rw [parseDecimal, unsigned_spell]
  by_cases hscale : scale = 0
  · subst hscale
    obtain ⟨taken, dropped⟩ := @span_digits (Nat.toDigits 10 (digits / 10 ^ 0)) [] isDigit_toDigits
      (by simp)
    simp only [if_true, taken, dropped, whole]
    simp [Python.natOf_toDigits]
  · have less : digits % 10 ^ scale < 10 ^ scale := Nat.mod_lt _ (by positivity)
    have fraction : Text.digits (Calendar.padded scale (digits % 10 ^ scale)) = true := by
      rw [Text.digits, decide_eq_true_eq]
      refine ⟨?_, List.all_eq_true.mpr fun c => Calendar.TimeOfDay.isDigit_of_mem_padded⟩
      rw [← List.length_pos_iff_ne_nil, Calendar.length_padded]
      omega
    have value : Text.natOf (Nat.toDigits 10 (digits / 10 ^ scale) ++
        Calendar.padded scale (digits % 10 ^ scale)) = digits := by
      rw [natOf_append, Python.natOf_toDigits, Calendar.length_padded,
        Calendar.TimeOfDay.natOf_padded less, mul_comm]
      exact Nat.div_add_mod digits (10 ^ scale)
    obtain ⟨taken, dropped⟩ := @span_digits (Nat.toDigits 10 (digits / 10 ^ scale))
      ('.' :: Calendar.padded scale (digits % 10 ^ scale)) isDigit_toDigits (by simp)
    simp only [hscale, if_false, taken, dropped, whole]
    simp [fraction, value, Calendar.length_padded]

/-- Of the pairs that name a value, one has the fewest digits after the point. -/
theorem exists_reduced (digits scale : ℕ) : ∃ digits' scale' : ℕ, (scale' = 0 ∨ ¬ 10 ∣ digits') ∧
    (digits / 10 ^ scale : ℚ) = digits' / 10 ^ scale' := by
  induction scale generalizing digits with
  | zero => exact ⟨digits, 0, .inl rfl, rfl⟩
  | succ scale ih =>
      by_cases tens : 10 ∣ digits
      · obtain ⟨fewer, rfl⟩ := tens
        obtain ⟨digits', scale', reduced, same⟩ := ih fewer
        refine ⟨digits', scale', reduced, ?_⟩
        rw [← same, pow_succ]
        push_cast
        field_simp
      · exact ⟨digits, scale + 1, .inr tens, rfl⟩

theorem scale_le_of_reduced {digits scale digits' scale' : ℕ} (reduced : scale' = 0 ∨ ¬ 10 ∣ digits')
    (same : (digits / 10 ^ scale : ℚ) = digits' / 10 ^ scale') : scale' ≤ scale := by
  by_contra less
  obtain ⟨k, rfl⟩ := Nat.exists_eq_add_of_lt (Nat.not_le.mp less)
  have tens : digits' = 10 * (10 ^ k * digits) := by
    have crossed : (digits' : ℚ) = 10 * (10 ^ k * digits) := by
      rw [div_eq_div_iff (by positivity) (by positivity)] at same
      have pos : (10 : ℚ) ^ scale ≠ 0 := by positivity
      apply mul_right_cancel₀ pos
      rw [← same, pow_succ, pow_add]
      ring
    exact_mod_cast crossed
  rcases reduced with zero | prime
  · omega
  · exact prime ⟨_, tens⟩

theorem reduced_unique {digits scale digits' scale' : ℕ} (h : scale = 0 ∨ ¬ 10 ∣ digits)
    (h' : scale' = 0 ∨ ¬ 10 ∣ digits') (same : (digits / 10 ^ scale : ℚ) = digits' / 10 ^ scale') :
    digits = digits' ∧ scale = scale' := by
  obtain rfl : scale = scale' :=
    le_antisymm (scale_le_of_reduced h same.symm) (scale_le_of_reduced h' same)
  rw [div_left_inj' (by positivity)] at same
  exact ⟨by exact_mod_cast same, rfl⟩

theorem parseInteger_ok {a path : String} {v : TypedValue} (h : parseInteger a path = .ok v) :
    ∃ negative ds, Text.unsigned a.toList = (negative, ds) ∧ (∀ c ∈ ds, c.isDigit) ∧
      0 < ds.length ∧ ds.length ≤ maxStrDigits ∧
      v = .integer (if negative then -(Text.natOf ds : ℤ) else Text.natOf ds) := by
  simp only [parseInteger] at h
  split at h
  · cases h
  · rename_i digits
    split at h
    · cases h
    · rename_i length
      rw [not_not, Text.digits, decide_eq_true_eq] at digits
      exact ⟨_, _, rfl, List.all_eq_true.mp digits.2, List.length_pos_iff_ne_nil.mpr digits.1,
        Nat.not_lt.mp length, (Except.ok.inj h).symm⟩

theorem parseDecimal_ok {a path : String} {v : TypedValue} (h : parseDecimal a path = .ok v) :
    ∃ (negative : Bool) (digits scale : ℕ),
      v = .decimal (if negative then -(digits / 10 ^ scale : ℚ) else digits / 10 ^ scale) := by
  simp only [parseDecimal] at h
  split at h
  · exact ⟨_, _, _, (Except.ok.inj h).symm⟩
  · cases h

section Signs

variable {α : Type} [CommRing α] [LinearOrder α] {x y : α}

theorem signed_nonzero (negative : Bool) :
    (if (negative && decide (x ≠ 0)) = true then -x else x) = if negative = true then -x else x := by
  cases negative with
  | false => rfl
  | true => by_cases zero : x = 0 <;> simp [zero]

theorem signed_injective [IsStrictOrderedRing α] {negative negative' : Bool} (hx : 0 ≤ x) (hy : 0 ≤ y)
    (h : negative → x ≠ 0) (h' : negative' → y ≠ 0)
    (same : (if negative then -x else x) = if negative' then -y else y) :
    negative = negative' ∧ x = y := by
  cases negative with
  | false =>
      cases negative' with
      | false => exact ⟨rfl, same⟩
      | true =>
          have pos := lt_of_le_of_ne hy (h' rfl).symm
          simp only [Bool.false_eq_true, if_false, if_true] at same
          linarith
  | true =>
      cases negative' with
      | false =>
          have pos := lt_of_le_of_ne hx (h rfl).symm
          simp only [Bool.false_eq_true, if_false, if_true] at same
          linarith
      | true => exact ⟨rfl, neg_injective same⟩

end Signs

theorem existsUnique_normalInteger {a path : String} {v : TypedValue}
    (h : parseInteger a path = .ok v) :
    ∃! b, NormalSpelling .integer b ∧ parseInteger b path = .ok v := by
  obtain ⟨negative, ds, _, digits, pos, length, rfl⟩ := parseInteger_ok h
  have shorter : (Nat.toDigits 10 (Text.natOf ds)).length ≤ maxStrDigits :=
    ((Nat.length_toDigits_le_iff (by omega) pos).mpr (natOf_lt digits)).trans length
  refine ⟨spell (negative && decide ((Text.natOf ds : ℤ) ≠ 0)) (Text.natOf ds) 0,
    ⟨⟨_, _, rfl, ?_⟩, ?_⟩, ?_⟩
  · simp
  · rw [parseInteger_spell path shorter, signed_nonzero]
  · rintro b ⟨⟨negative', digits', rfl, nonzero⟩, hb⟩
    obtain ⟨_, _, unsigned, _, _, length', _⟩ := parseInteger_ok hb
    rw [unsigned_spell, Prod.mk.injEq] at unsigned
    obtain ⟨rfl, rfl⟩ := unsigned
    rw [parseInteger_spell path (by simpa using length')] at hb
    simp only [Except.ok.injEq, TypedValue.integer.injEq] at hb
    rw [← signed_nonzero negative] at hb
    obtain ⟨rfl, same⟩ := signed_injective (by positivity) (by positivity)
      (by simpa using nonzero) (by simp) hb
    rw [Int.natCast_inj.mp same]

theorem existsUnique_normalDecimal {a path : String} {v : TypedValue}
    (h : parseDecimal a path = .ok v) :
    ∃! b, NormalSpelling .decimal b ∧ parseDecimal b path = .ok v := by
  obtain ⟨negative, digits, scale, rfl⟩ := parseDecimal_ok h
  obtain ⟨digits', scale', reduced, same⟩ := exists_reduced digits scale
  have zero (digits scale : ℕ) : (digits / 10 ^ scale : ℚ) ≠ 0 ↔ digits ≠ 0 := by simp
  rw [same]
  refine ⟨spell (negative && decide ((digits' / 10 ^ scale' : ℚ) ≠ 0)) digits' scale',
    ⟨⟨_, _, _, rfl, ?_, reduced⟩, ?_⟩, ?_⟩
  · intro signed
    rw [Bool.and_eq_true, decide_eq_true_eq, zero] at signed
    exact signed.2
  · rw [parseDecimal_spell, signed_nonzero]
  · rintro b ⟨⟨negative'', digits'', scale'', rfl, nonzero, reduced'⟩, hb⟩
    rw [parseDecimal_spell] at hb
    simp only [Except.ok.injEq, TypedValue.decimal.injEq] at hb
    rw [← signed_nonzero negative] at hb
    obtain ⟨rfl, equal⟩ := signed_injective (by positivity) (by positivity)
      (fun signed => (zero _ _).mpr (nonzero signed)) (fun signed => by simp_all) hb
    obtain ⟨rfl, rfl⟩ := reduced_unique reduced' reduced equal
    rfl

/-- Every accepted literal has exactly one normal spelling. -/
theorem existsUnique_normalSpelling {type : LiteralType} {a : String} (parses : Parses type a) :
    ∃! b, NormalSpelling type b ∧ SameValue type a b := by
  obtain ⟨v, path, h⟩ := parses
  have values {b : String} : SameValue type a b ↔ parseTypedValue type b path = .ok v := by
    constructor
    · rintro ⟨v', path', ha, hb⟩
      cases h.symm.trans (parseTypedValue_path ha path)
      exact parseTypedValue_path hb path
    · intro hb
      exact ⟨v, path, h, hb⟩
  cases type with
  | integer =>
      simp only [values]
      exact existsUnique_normalInteger h
  | decimal =>
      simp only [values]
      exact existsUnique_normalDecimal h
  | string | boolean | date =>
      refine ⟨a, ⟨trivial, v, path, h, h⟩, fun b hb => ?_⟩
      exact (eq_of_sameValue (by decide) (by decide) hb.2).symm

theorem eq_of_sameValue_of_normal {type : LiteralType} {a b : String}
    (ha : NormalSpelling type a) (hb : NormalSpelling type b) (same : SameValue type a b) :
    a = b := by
  have ⟨v, path, h, _⟩ := same
  exact (existsUnique_normalSpelling ⟨v, path, h⟩).unique ⟨ha, v, path, h, h⟩ ⟨hb, same⟩

/-- The accepted literals of a type are canonical exactly if it is neither `integer` nor
    `decimal`. -/
theorem literals_canonical_iff (py : Primitives) (type : LiteralType) :
    CanonicalSpelling py type ↔ type ≠ .integer ∧ type ≠ .decimal := by
  constructor
  · intro canonical
    constructor
    · intro integer
      rw [integer] at canonical
      exact absurd (canonical.strings _ _ sameValue_seven) (by decide)
    · intro decimal
      rw [decimal] at canonical
      exact absurd (canonical.strings _ _ sameValue_half) (by decide)
  · intro other
    exact canonicalSpelling_of_strings py fun a b same => eq_of_sameValue other.1 other.2 same

/-- `amount = value`. -/
def amountIs (value : String) : FilterPredicate :=
  ⟨.equal, "bank::public.txn.amount", some ⟨.integer, value⟩, none, none⟩

/-- `7` and `07` are both accepted: two filters that differ in them alone are admitted and
    have two forms, and a set keeps both. -/
theorem leading_zero_kept :
    (SameValue .integer "7" "07" ∧ "7" ≠ "07") ∧
    (SpelledAlike .integer (.predicate (amountIs "7")) (.predicate (amountIs "07")) ∧
      passes (.predicate (amountIs "7")) ∧ passes (.predicate (amountIs "07")) ∧
      (filterPlain letters "filter" (.predicate (amountIs "7"))).toOption
        ≠ (filterPlain letters "filter" (.predicate (amountIs "07"))).toOption) ∧
    (passes (.predicate (amountIn ["7", "07"])) ∧
      setPlain letters [⟨.integer, "7"⟩, ⟨.integer, "07"⟩]
        = plainList TypedLiteral.plain [⟨.integer, "07"⟩, ⟨.integer, "7"⟩]) := by
  refine ⟨⟨sameValue_seven, by decide⟩, ⟨?_, by decide +kernel, by decide +kernel, ?_⟩,
    by decide +kernel, ?_⟩
  · exact .literal (amountIs "") sameValue_seven
  · have differ : canonicalPredicate letters (amountIs "7")
        ≠ canonicalPredicate letters (amountIs "07") := by decide +kernel
    intro h
    simp only [filterPlain, toOption_predicatePlain] at h
    exact differ (Option.map_injective FilterPredicate.plain_injective h)
  · rw [← plain_canonicalSet]
    congr 1

end FeatureGen.Formula
