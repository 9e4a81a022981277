import Mathlib

/-! # JSON texts

JSON trees and the text `json.dumps(…, sort_keys=True, separators=(",", ":"))`
writes of them. The text of a tree whose keys are sorted determines the tree:
`render_injective`.
-/

/-- A number as it is written. It shares no character with what can follow a value. -/
structure Json.Number where
  text : List Char
  starts : ∃ c rest, text = c :: rest ∧ c ∉ ['"', '[', '{', 'n', 't', 'f']
  delimited : ∀ c ∈ text, c ∉ [',', ']', '}']
  deriving DecidableEq

mutual

inductive Json where
  | null
  | bool (b : Bool)
  | num (n : Json.Number)
  | str (s : String)
  | arr (items : Json.Items)
  | obj (members : Json.Members)
  deriving DecidableEq

inductive Json.Items where
  | nil
  | cons (item : Json) (items : Json.Items)

/-- An object's members, in the order they were set. -/
inductive Json.Members where
  | nil
  | cons (key : String) (value : Json) (members : Json.Members)

end

namespace Json

def Items.ofList : List Json → Items
  | [] => .nil
  | j :: js => .cons j (ofList js)

def Members.ofList : List (String × Json) → Members
  | [] => .nil
  | (key, value) :: members => .cons key value (ofList members)

/-- A string, or `null` for none. -/
def ofOption : Option String → Json
  | none => .null
  | some s => .str s

def Members.insert (key : String) (value : Json) : Members → Members
  | .nil => .cons key value .nil
  | .cons key' value' members =>
      if key ≤ key' then .cons key value (.cons key' value' members)
      else .cons key' value' (members.insert key value)

mutual

def sortKeys : Json → Json
  | .arr items => .arr (items.sortKeys)
  | .obj members => .obj (members.sortKeys)
  | j => j

def Items.sortKeys : Items → Items
  | .nil => .nil
  | .cons item items => .cons (Json.sortKeys item) (items.sortKeys)

def Members.sortKeys : Members → Members
  | .nil => .nil
  | .cons key value members => members.sortKeys.insert key (Json.sortKeys value)

end

def hexDigit (n : ℕ) : Char := "0123456789abcdef".toList.getD n '0'

/-- `\uXXXX` of one UTF-16 unit. -/
def unicodeEscape (unit : ℕ) : List Char :=
  '\\' :: 'u' :: [hexDigit (unit / 4096 % 16), hexDigit (unit / 256 % 16), hexDigit (unit / 16 % 16),
    hexDigit (unit % 16)]

/-- The characters with an escape of two characters, and its letter. -/
def shortEscapes : List (Char × Char) :=
  [('"', '"'), ('\\', '\\'), ('\n', 'n'), ('\r', 'r'), ('\t', 't'), (Char.ofNat 12, 'f'),
    (Char.ofNat 8, 'b')]

def shortEscape (c : Char) : Option Char :=
  (shortEscapes.find? fun e => e.1 = c).map (·.2)

/-- One character of a string, with `ensure_ascii`. -/
def escape (c : Char) : List Char :=
  match shortEscape c with
  | some letter => ['\\', letter]
  | none =>
      if 32 ≤ c.toNat ∧ c.toNat ≤ 126 then [c]
      else if c.toNat < 65536 then unicodeEscape c.toNat
      else unicodeEscape (55296 + (c.toNat - 65536) / 1024) ++
        unicodeEscape (56320 + (c.toNat - 65536) % 1024)

def quoted (s : List Char) : List Char := '"' :: s.flatMap escape ++ ['"']

mutual

def render : Json → List Char
  | .null => ['n', 'u', 'l', 'l']
  | .bool true => ['t', 'r', 'u', 'e']
  | .bool false => ['f', 'a', 'l', 's', 'e']
  | .num n => n.text
  | .str s => quoted s.toList
  | .arr .nil => ['[', ']']
  | .arr (.cons item items) => '[' :: item.render ++ items.render
  | .obj .nil => ['{', '}']
  | .obj (.cons key value members) =>
      '{' :: quoted key.toList ++ ':' :: value.render ++ members.render

/-- What follows an item: the other items and the closing bracket. -/
def Items.render : Items → List Char
  | .nil => [']']
  | .cons item items => ',' :: Json.render item ++ items.render

def Members.render : Members → List Char
  | .nil => ['}']
  | .cons key value members =>
      ',' :: quoted key.toList ++ ':' :: Json.render value ++ members.render

end

/-- `json.dumps(j, sort_keys=True, separators=(",", ":"))`. -/
def dumps (j : Json) : List Char := j.sortKeys.render

theorem hexDigit_inj : ∀ a < 16, ∀ b < 16, hexDigit a = hexDigit b → a = b := by decide

theorem unicodeEscape_append_inj {u v : ℕ} {s t : List Char} (hu : u < 65536) (hv : v < 65536)
    (h : unicodeEscape u ++ s = unicodeEscape v ++ t) : u = v ∧ s = t := by
  simp only [unicodeEscape, List.cons_append, List.nil_append, List.cons.injEq, true_and] at h
  obtain ⟨h₁, h₂, h₃, h₄, rest⟩ := h
  have e₁ := hexDigit_inj _ (by omega) _ (by omega) h₁
  have e₂ := hexDigit_inj _ (by omega) _ (by omega) h₂
  have e₃ := hexDigit_inj _ (by omega) _ (by omega) h₃
  have e₄ := hexDigit_inj _ (by omega) _ (by omega) h₄
  exact ⟨by omega, rest⟩

theorem mem_of_shortEscape {c letter : Char} (h : shortEscape c = some letter) :
    (c, letter) ∈ shortEscapes := by
  obtain ⟨e, he, rfl⟩ := Option.map_eq_some_iff.mp h
  have hc := List.find?_some he
  rw [← of_decide_eq_true hc]
  exact List.mem_of_find?_eq_some he

theorem shortEscape_inj {c d letter : Char} (hc : shortEscape c = some letter)
    (hd : shortEscape d = some letter) : c = d := by
  have distinct : ∀ e ∈ shortEscapes, ∀ e' ∈ shortEscapes, e.2 = e'.2 → e.1 = e'.1 := by decide
  exact distinct _ (mem_of_shortEscape hc) _ (mem_of_shortEscape hd) rfl

theorem shortEscape_ne_u {c letter : Char} (h : shortEscape c = some letter) : letter ≠ 'u' := by
  have letters : ∀ e ∈ shortEscapes, e.2 ≠ 'u' := by decide
  exact letters _ (mem_of_shortEscape h)

theorem toNat_not_surrogate (c : Char) : ¬ (55296 ≤ c.toNat ∧ c.toNat < 57344) ∧
    c.toNat < 1114112 := by
  have h := c.valid
  simp only [UInt32.isValidChar, Nat.isValidChar] at h
  show ¬ (55296 ≤ c.val.toNat ∧ c.val.toNat < 57344) ∧ c.val.toNat < 1114112
  omega

theorem escape_cases (c : Char) :
    (∃ letter, shortEscape c = some letter ∧ escape c = ['\\', letter]) ∨
    (c ≠ '"' ∧ c ≠ '\\' ∧ escape c = [c]) ∨
    (c.toNat < 65536 ∧ escape c = unicodeEscape c.toNat) ∨
    (65536 ≤ c.toNat ∧ escape c = unicodeEscape (55296 + (c.toNat - 65536) / 1024) ++
      unicodeEscape (56320 + (c.toNat - 65536) % 1024)) := by
  cases h : shortEscape c with
  | some letter => exact Or.inl ⟨letter, rfl, by simp [escape, h]⟩
  | none =>
      right
      have hquote : c ≠ '"' := by
        rintro rfl
        exact absurd h (by decide)
      have hslash : c ≠ '\\' := by
        rintro rfl
        exact absurd h (by decide)
      by_cases plain : 32 ≤ c.toNat ∧ c.toNat ≤ 126
      · exact Or.inl ⟨hquote, hslash, by simp [escape, h, plain]⟩
      · right
        by_cases hbmp : c.toNat < 65536
        · exact Or.inl ⟨hbmp, by simp [escape, h, plain, hbmp]⟩
        · exact Or.inr ⟨by omega, by simp [escape, h, plain, hbmp]⟩

theorem escape_head (c : Char) : ∃ x xs, escape c = x :: xs ∧ x ≠ '"' := by
  rcases escape_cases c with ⟨letter, _, h⟩ | ⟨hquote, _, h⟩ | ⟨_, h⟩ | ⟨_, h⟩
  · exact ⟨'\\', [letter], h, by decide⟩
  · exact ⟨c, [], h, hquote⟩
  · exact ⟨'\\', _, h, by decide⟩
  · exact ⟨'\\', _, h, by decide⟩

theorem escape_append_inj {c d : Char} {s t : List Char} (h : escape c ++ s = escape d ++ t) :
    c = d ∧ s = t := by
  have hc := toNat_not_surrogate c
  have hd := toNat_not_surrogate d
  rcases escape_cases c with ⟨x, hx, ec⟩ | ⟨_, cslash, ec⟩ | ⟨cbmp, ec⟩ | ⟨cbig, ec⟩ <;>
    rcases escape_cases d with ⟨y, hy, ed⟩ | ⟨_, dslash, ed⟩ | ⟨dbmp, ed⟩ | ⟨dbig, ed⟩ <;>
    rw [ec, ed] at h
  case inl.inl =>
    simp only [List.cons_append, List.nil_append, List.cons.injEq, true_and] at h
    exact ⟨shortEscape_inj hx (h.1 ▸ hy), h.2⟩
  case inr.inl.inr.inl =>
    simpa using h
  case inr.inr.inl.inr.inr.inl =>
    obtain ⟨hn, hst⟩ := unicodeEscape_append_inj cbmp dbmp h
    exact ⟨Char.toNat_inj.mp hn, hst⟩
  case inr.inr.inr.inr.inr.inr =>
    rw [List.append_assoc, List.append_assoc] at h
    obtain ⟨high, h⟩ := unicodeEscape_append_inj (by omega) (by omega) h
    obtain ⟨low, hst⟩ := unicodeEscape_append_inj (by omega) (by omega) h
    exact ⟨Char.toNat_inj.mp (by omega), hst⟩
  case inr.inr.inl.inr.inr.inr =>
    rw [List.append_assoc] at h
    have := (unicodeEscape_append_inj cbmp (by omega) h).1
    omega
  case inr.inr.inr.inr.inr.inl =>
    rw [List.append_assoc] at h
    have := (unicodeEscape_append_inj (by omega) dbmp h).1
    omega
  all_goals
    simp only [unicodeEscape, List.cons_append, List.nil_append, List.cons.injEq, true_and] at h
  · exact absurd h.1.symm dslash
  · exact absurd h.1 (shortEscape_ne_u hx)
  · exact absurd h.1 (shortEscape_ne_u hx)
  · exact absurd h.1 cslash
  · exact absurd h.1 cslash
  · exact absurd h.1 cslash
  · exact absurd h.1.symm (shortEscape_ne_u hy)
  · exact absurd h.1.symm dslash
  · exact absurd h.1.symm (shortEscape_ne_u hy)
  · exact absurd h.1.symm dslash

theorem flatMap_escape_inj {a b s t : List Char}
    (h : a.flatMap escape ++ '"' :: s = b.flatMap escape ++ '"' :: t) : a = b ∧ s = t := by
  induction a generalizing b with
  | nil =>
      cases b with
      | nil => simpa using h
      | cons d b =>
          obtain ⟨x, xs, hx, hquote⟩ := escape_head d
          simp only [List.flatMap_nil, List.nil_append, List.flatMap_cons, hx, List.cons_append,
            List.cons.injEq] at h
          exact absurd h.1.symm hquote
  | cons c a ih =>
      cases b with
      | nil =>
          obtain ⟨x, xs, hx, hquote⟩ := escape_head c
          simp only [List.flatMap_nil, List.nil_append, List.flatMap_cons, hx, List.cons_append,
            List.cons.injEq] at h
          exact absurd h.1 hquote
      | cons d b =>
          simp only [List.flatMap_cons, List.append_assoc] at h
          obtain ⟨hc, rest⟩ := escape_append_inj h
          obtain ⟨hab, hst⟩ := ih rest
          exact ⟨by rw [hc, hab], hst⟩

theorem quoted_append_inj {a b s t : List Char} (h : quoted a ++ s = quoted b ++ t) :
    a = b ∧ s = t := by
  simp only [quoted, List.cons_append, List.append_assoc, List.nil_append, List.cons.injEq,
    true_and] at h
  exact flatMap_escape_inj h

/-- What can follow a value: nothing, a comma or a closing bracket. -/
def Follows (s : List Char) : Prop := ∀ c ∈ s.head?, c ∈ [',', ']', '}']

theorem follows_nil : Follows [] := nofun

theorem follows_cons {c : Char} {s : List Char} (h : c ∈ [',', ']', '}']) : Follows (c :: s) := by
  intro x hx
  cases hx
  exact h

theorem Items.follows (items : Items) (s : List Char) : Follows (items.render ++ s) := by
  cases items <;> exact follows_cons (by simp)

theorem Members.follows (members : Members) (s : List Char) :
    Follows (members.render ++ s) := by
  cases members <;> exact follows_cons (by simp)

theorem Number.append_inj {m n : Number} {s t : List Char} (hs : Follows s) (ht : Follows t)
    (h : m.text ++ s = n.text ++ t) : m = n ∧ s = t := by
  have key : ∀ (a b : List Char), (∀ c ∈ a, c ∉ [',', ']', '}']) →
      (∀ c ∈ b, c ∉ [',', ']', '}']) → a ++ s = b ++ t → a = b ∧ s = t := by
    intro a
    induction a with
    | nil =>
        intro b _ hb heq
        cases b with
        | nil => exact ⟨rfl, heq⟩
        | cons d b =>
            rw [List.nil_append] at heq
            exact absurd (hs d (by simp [heq])) (hb d List.mem_cons_self)
    | cons c a ih =>
        intro b ha hb heq
        cases b with
        | nil =>
            rw [List.nil_append] at heq
            exact absurd (ht c (by simp [← heq])) (ha c List.mem_cons_self)
        | cons d b =>
            simp only [List.cons_append, List.cons.injEq] at heq
            obtain ⟨hab, hst⟩ := ih b (fun x hx => ha x (List.mem_cons_of_mem c hx))
              (fun x hx => hb x (List.mem_cons_of_mem d hx)) heq.2
            exact ⟨by rw [heq.1, hab], hst⟩
  obtain ⟨htext, hst⟩ := key m.text n.text m.delimited n.delimited h
  cases m
  cases n
  subst htext
  exact ⟨rfl, hst⟩

inductive Kind where
  | null
  | bool
  | num
  | str
  | arr
  | obj
  deriving DecidableEq

def kind : Json → Kind
  | .null => .null
  | .bool _ => .bool
  | .num _ => .num
  | .str _ => .str
  | .arr _ => .arr
  | .obj _ => .obj

/-- The first character of a value tells its kind. -/
def kindOf (c : Char) : Kind :=
  if c = 'n' then .null
  else if c ∈ ['t', 'f'] then .bool
  else if c = '"' then .str
  else if c = '[' then .arr
  else if c = '{' then .obj
  else .num

theorem render_head (j : Json) :
    ∃ c rest, j.render = c :: rest ∧ kindOf c = j.kind ∧ c ∉ [',', ']', '}'] := by
  cases j with
  | null => exact ⟨'n', _, by rw [render], by decide⟩
  | bool b =>
      cases b
      · exact ⟨'f', _, by rw [render], by decide⟩
      · exact ⟨'t', _, by rw [render], by decide⟩
  | num n =>
      obtain ⟨c, rest, htext, hc⟩ := n.starts
      refine ⟨c, rest, by rw [render, htext], ?_, n.delimited c (by simp [htext])⟩
      simp only [List.mem_cons, not_or] at hc
      simp [kindOf, kind, hc]
  | str s => exact ⟨'"', _, by rw [render, quoted, List.cons_append], rfl, by decide⟩
  | arr items =>
      cases items
      · exact ⟨'[', _, by rw [render], rfl, by decide⟩
      · exact ⟨'[', _, by rw [render, List.cons_append], rfl, by decide⟩
  | obj members =>
      cases members
      · exact ⟨'{', _, by rw [render], rfl, by decide⟩
      · exact ⟨'{', _, by rw [render, List.cons_append, List.cons_append], rfl, by decide⟩

theorem render_append_ne {j : Json} {c : Char} {s t : List Char} (hc : c ∈ [',', ']', '}']) :
    j.render ++ s ≠ c :: t := by
  intro h
  obtain ⟨x, rest, hx, _, hnot⟩ := render_head j
  rw [hx, List.cons_append, List.cons.injEq] at h
  exact hnot (h.1 ▸ hc)

theorem kind_eq {j k : Json} {s t : List Char} (h : j.render ++ s = k.render ++ t) :
    j.kind = k.kind := by
  obtain ⟨c, rest, hj, kindJ, _⟩ := render_head j
  obtain ⟨d, rest', hk, kindK, _⟩ := render_head k
  rw [hj, hk, List.cons_append, List.cons_append, List.cons.injEq] at h
  rw [← kindJ, ← kindK, h.1]

mutual

theorem render_append_inj (j k : Json) {s t : List Char} (hs : Follows s) (ht : Follows t)
    (h : j.render ++ s = k.render ++ t) : j = k ∧ s = t := by
  have kinds := kind_eq h
  cases j with
  | null =>
      cases k with
      | null => exact ⟨rfl, List.append_cancel_left h⟩
      | _ => cases kinds
  | bool b =>
      cases k with
      | bool b' =>
          cases b <;> cases b' <;> simp_all [render]
      | _ => cases kinds
  | num n =>
      cases k with
      | num m =>
          rw [render, render] at h
          obtain ⟨rfl, hst⟩ := Number.append_inj hs ht h
          exact ⟨rfl, hst⟩
      | _ => cases kinds
  | str a =>
      cases k with
      | str b =>
          rw [render, render] at h
          obtain ⟨hab, hst⟩ := quoted_append_inj h
          exact ⟨by rw [String.toList_inj.mp hab], hst⟩
      | _ => cases kinds
  | arr items =>
      cases k with
      | arr items' =>
          cases items with
          | nil =>
              cases items' with
              | nil => exact ⟨rfl, List.append_cancel_left h⟩
              | cons item' items' =>
                  simp only [render, List.cons_append, List.append_assoc] at h
                  exact absurd (List.cons.inj h).2.symm (render_append_ne (by simp))
          | cons item items =>
              cases items' with
              | nil =>
                  simp only [render, List.cons_append, List.append_assoc] at h
                  exact absurd (List.cons.inj h).2 (render_append_ne (by simp))
              | cons item' items' =>
                  simp only [render, List.cons_append, List.append_assoc, List.cons.injEq,
                    true_and] at h
                  obtain ⟨rfl, rest⟩ := render_append_inj item item' (items.follows s)
                    (items'.follows t) h
                  obtain ⟨rfl, hst⟩ := Items.render_append_inj items items' rest
                  exact ⟨rfl, hst⟩
      | _ => cases kinds
  | obj members =>
      cases k with
      | obj members' =>
          cases members with
          | nil =>
              cases members' with
              | nil => exact ⟨rfl, List.append_cancel_left h⟩
              | cons key' value' members' =>
                  simp only [render, quoted, List.cons_append, List.append_assoc] at h
                  exact absurd (List.cons.inj (List.cons.inj h).2).1 (by decide)
          | cons key value members =>
              cases members' with
              | nil =>
                  simp only [render, quoted, List.cons_append, List.append_assoc] at h
                  exact absurd (List.cons.inj (List.cons.inj h).2).1 (by decide)
              | cons key' value' members' =>
                  simp only [render, List.cons_append, List.append_assoc, List.cons.injEq,
                    true_and] at h
                  obtain ⟨hkey, h⟩ := quoted_append_inj h
                  simp only [List.cons.injEq, true_and] at h
                  obtain ⟨rfl, rest⟩ := render_append_inj value value' (members.follows s)
                    (members'.follows t) h
                  obtain ⟨rfl, hst⟩ := Members.render_append_inj members members' rest
                  exact ⟨by rw [String.toList_inj.mp hkey], hst⟩
      | _ => cases kinds

theorem Items.render_append_inj (a b : Items) {s t : List Char}
    (h : a.render ++ s = b.render ++ t) : a = b ∧ s = t := by
  cases a with
  | nil =>
      cases b with
      | nil => exact ⟨rfl, List.append_cancel_left h⟩
      | cons item' items' =>
          simp only [Items.render, List.cons_append] at h
          exact absurd (List.cons.inj h).1 (by decide)
  | cons item items =>
      cases b with
      | nil =>
          simp only [Items.render, List.cons_append] at h
          exact absurd (List.cons.inj h).1 (by decide)
      | cons item' items' =>
          simp only [Items.render, List.cons_append, List.append_assoc, List.cons.injEq,
            true_and] at h
          obtain ⟨rfl, rest⟩ := Json.render_append_inj item item' (items.follows s)
            (items'.follows t) h
          obtain ⟨rfl, hst⟩ := Items.render_append_inj items items' rest
          exact ⟨rfl, hst⟩

theorem Members.render_append_inj (a b : Members) {s t : List Char}
    (h : a.render ++ s = b.render ++ t) : a = b ∧ s = t := by
  cases a with
  | nil =>
      cases b with
      | nil => exact ⟨rfl, List.append_cancel_left h⟩
      | cons key' value' members' =>
          simp only [Members.render, List.cons_append] at h
          exact absurd (List.cons.inj h).1 (by decide)
  | cons key value members =>
      cases b with
      | nil =>
          simp only [Members.render, List.cons_append] at h
          exact absurd (List.cons.inj h).1 (by decide)
      | cons key' value' members' =>
          simp only [Members.render, List.cons_append, List.append_assoc, List.cons.injEq,
            true_and] at h
          obtain ⟨hkey, h⟩ := quoted_append_inj h
          simp only [List.cons.injEq, true_and] at h
          obtain ⟨rfl, rest⟩ := Json.render_append_inj value value' (members.follows s)
            (members'.follows t) h
          obtain ⟨rfl, hst⟩ := Members.render_append_inj members members' rest
          exact ⟨by rw [String.toList_inj.mp hkey], hst⟩

end

theorem render_injective : Function.Injective render := by
  intro j k h
  exact (render_append_inj j k follows_nil follows_nil (by rw [h])).1

def Members.get? (key : String) : Members → Option Json
  | .nil => none
  | .cons key' value members => if key' = key then some value else members.get? key

theorem Members.get?_insert (members : Members) (key : String) (value : Json) (k : String) :
    (members.insert key value).get? k = if key = k then some value else members.get? k := by
  match members with
  | .nil => rfl
  | .cons key' value' members =>
      rw [Members.insert]
      split
      · rfl
      · next above =>
          have apart : key ≠ key' := fun same => above (same ▸ String.le_refl key)
          rw [Members.get?, Members.get?_insert members key value k, Members.get?]
          by_cases here : key' = k
          · rw [if_pos here, if_pos here, if_neg (here ▸ apart)]
          · rw [if_neg here, if_neg here]

theorem Members.get?_sortKeys (members : Members) (k : String) :
    members.sortKeys.get? k = (members.get? k).map Json.sortKeys := by
  match members with
  | .nil => rfl
  | .cons key value members =>
      rw [Members.sortKeys, Members.get?_insert, Members.get?_sortKeys members k, Members.get?]
      split <;> rfl

theorem get?_of_sortKeys_eq {a b : Members} (h : sortKeys (.obj a) = sortKeys (.obj b))
    (key : String) : (a.get? key).map sortKeys = (b.get? key).map sortKeys := by
  rw [sortKeys, sortKeys, Json.obj.injEq] at h
  rw [← Members.get?_sortKeys, ← Members.get?_sortKeys, h]

theorem ofList_map_inj {α : Type} {encode : α → Json}
    (inj : ∀ a b, sortKeys (encode a) = sortKeys (encode b) → a = b) {as bs : List α}
    (h : (Items.ofList (as.map encode)).sortKeys = (Items.ofList (bs.map encode)).sortKeys) :
    as = bs := by
  induction as generalizing bs with
  | nil =>
      cases bs with
      | nil => rfl
      | cons b bs => simp [Items.ofList, Items.sortKeys] at h
  | cons a as ih =>
      cases bs with
      | nil => simp [Items.ofList, Items.sortKeys] at h
      | cons b bs =>
          simp only [List.map_cons, Items.ofList, Items.sortKeys, Items.cons.injEq] at h
          rw [inj a b h.1, ih h.2]

theorem ofOption_inj {a b : Option String} (h : sortKeys (ofOption a) = sortKeys (ofOption b)) :
    a = b := by
  cases a <;> cases b <;> simp_all [ofOption, sortKeys]

theorem digit_of_mem_repr {n : ℕ} {c : Char} (h : c ∈ (Nat.repr n).toList) : c.isDigit := by
  rw [Nat.repr, String.toList_ofList] at h
  exact Nat.isDigit_of_mem_toDigits (by decide) (by decide) h

/-- A rational as it is written: its numerator, and its denominator where that is not 1. -/
def ratText (q : ℚ) : List Char :=
  (Int.repr q.num).toList ++ if q.den = 1 then [] else '/' :: (Nat.repr q.den).toList

theorem mem_repr_int {n : ℤ} {c : Char} (h : c ∈ (Int.repr n).toList) : c = '-' ∨ c.isDigit := by
  cases n with
  | ofNat n => exact Or.inr (digit_of_mem_repr h)
  | negSucc n =>
      rw [Int.repr] at h
      simp only [String.toList_append, List.mem_append] at h
      rcases h with h | h
      · exact Or.inl (by simpa using h)
      · exact Or.inr (digit_of_mem_repr h)

theorem ratText_injective : Function.Injective ratText := by
  intro p q h
  have numerator : ∀ r : ℚ, (ratText r).takeWhile (· ≠ '/') = (Int.repr r.num).toList := by
    intro r
    have before : ∀ c ∈ (Int.repr r.num).toList, (decide (c ≠ '/')) = true := by
      intro c hc
      rcases mem_repr_int hc with rfl | hdigit
      · decide
      · refine decide_eq_true ?_
        rintro rfl
        cases hdigit
    rw [ratText, List.takeWhile_append_of_pos before]
    split <;> simp
  have hnum : p.num = q.num :=
    Int.repr_injective (String.toList_inj.mp (by rw [← numerator p, ← numerator q, h]))
  rw [ratText, ratText, hnum, List.append_cancel_left_eq] at h
  refine Rat.ext hnum ?_
  split at h <;> split at h
  · rename_i hp hq
    rw [hp, hq]
  · cases h
  · cases h
  · exact Nat.repr_injective (String.toList_inj.mp (List.cons.inj h).2)

theorem ratText_chars {q : ℚ} {c : Char} (h : c ∈ ratText q) : c = '-' ∨ c = '/' ∨ c.isDigit := by
  rw [ratText, List.mem_append] at h
  rcases h with h | h
  · exact (mem_repr_int h).imp_right Or.inr
  · split at h
    · cases h
    · rcases List.mem_cons.mp h with rfl | h
      · exact Or.inr (Or.inl rfl)
      · exact Or.inr (Or.inr (digit_of_mem_repr h))

theorem ratText_ne_nil (q : ℚ) : ratText q ≠ [] := by
  have hnum : (Int.repr q.num).toList ≠ [] := by
    cases q.num with
    | ofNat n =>
        rw [Int.repr, Nat.repr, String.toList_ofList]
        exact Nat.toDigits_ne_nil
    | negSucc n => simp [Int.repr]
  simp [ratText, hnum]

/-- The number a rational is written as. -/
def Number.ofRat (q : ℚ) : Number where
  text := ratText q
  starts := by
    obtain ⟨c, rest, htext⟩ := List.exists_cons_of_ne_nil (ratText_ne_nil q)
    have hc : c = '-' ∨ c = '/' ∨ c.isDigit := ratText_chars (q := q) (by simp [htext])
    refine ⟨c, rest, htext, ?_⟩
    rcases hc with rfl | rfl | hdigit
    · decide
    · decide
    · intro hmem
      simp only [List.mem_cons, List.not_mem_nil, or_false] at hmem
      rcases hmem with rfl | rfl | rfl | rfl | rfl | rfl <;> cases hdigit
  delimited := by
    intro c hc hmem
    simp only [List.mem_cons, List.not_mem_nil, or_false] at hmem
    rcases ratText_chars hc with rfl | rfl | hdigit
    · revert hmem
      decide
    · revert hmem
      decide
    · rcases hmem with rfl | rfl | rfl <;> cases hdigit

theorem Number.ofRat_injective : Function.Injective Number.ofRat := fun _ _ h =>
  ratText_injective (congrArg Number.text h)

end Json
