import SketchLang.Proofs.Text.Run
import SketchLang.Text.Quoted

namespace SketchLang.Text

theorem digitChar_inj {m n : Nat} (hm : m < 16) (hn : n < 16) (h : m.digitChar = n.digitChar) :
    m = n := by
  have htable : ∀ m < 16, ∀ n < 16, m.digitChar = n.digitChar → m = n := by decide
  exact htable m hm n hn h

section Digits

variable {b : Nat} {c : Char}

theorem toDigits_eq_append (hb : 1 < b) (n : Nat) :
    Nat.toDigits b n = (if n < b then [] else Nat.toDigits b (n / b)) ++ [(n % b).digitChar] := by
  rw [Nat.toDigits_eq_if hb]
  split
  . next hn => simp [Nat.mod_eq_of_lt hn]
  . rfl

theorem not_mem_toDigits (hb : 1 < b) (hc : ∀ d : Nat, d.digitChar ≠ c) (n : Nat) :
    c ∉ Nat.toDigits b n := by
  induction n using Nat.strongRecOn with
  | ind n ih =>
    rw [toDigits_eq_append hb, List.mem_append, List.mem_singleton, not_or]
    constructor
    . split
      . apply List.not_mem_nil
      . apply ih
        apply Nat.div_lt_self
        . omega
        . exact hb
    . exact (hc _).symm

theorem toDigits_inj (hb : 1 < b) (hb' : b ≤ 16) {m n : Nat}
    (h : Nat.toDigits b m = Nat.toDigits b n) : m = n := by
  induction m using Nat.strongRecOn generalizing n with
  | ind m ih =>
    rw [toDigits_eq_append hb m, toDigits_eq_append hb n] at h
    rcases List.append_inj' h rfl with ⟨hfront, hlast⟩
    injection hlast with hlast
    have hm := Nat.mod_lt m (show b > 0 by omega)
    have hn := Nat.mod_lt n (show b > 0 by omega)
    have hdigit : m % b = n % b := digitChar_inj (by omega) (by omega) hlast
    split at hfront
    . next hlt =>
      split at hfront
      . next hlt' => rwa [Nat.mod_eq_of_lt hlt, Nat.mod_eq_of_lt hlt'] at hdigit
      . exact absurd hfront.symm Nat.toDigits_ne_nil
    . next hlt =>
      split at hfront
      . exact absurd hfront Nat.toDigits_ne_nil
      . have hless : m / b < m := Nat.div_lt_self (by omega) hb
        have hquotient := ih (m / b) hless hfront
        rw [← Nat.div_add_mod m b, ← Nat.div_add_mod n b, hquotient, hdigit]

end Digits

def unescaped (letter : Char) : Char :=
  if letter = '0' then '\x00'
  else if letter = 't' then '\t'
  else if letter = 'n' then '\n'
  else if letter = 'r' then '\r'
  else letter

def IsMark (mark : Char) : Prop := mark = '"' ∨ mark = '\''

variable {mark c d : Char} {text text' rest rest' : List Char}

theorem escape_cases (hmark : IsMark mark) (c : Char) :
    (escape mark c = [c] ∧ c ≠ '\\' ∧ c ≠ mark ∧ c ≠ '\n') ∨
      (∃ letter, escape mark c = ['\\', letter] ∧ letter ≠ 'u' ∧ letter ≠ '\n' ∧
        unescaped letter = c) ∨
      escape mark c = codePointEscape c := by
  unfold escape
  split
  . next hc => exact .inr (.inl ⟨'0', rfl, by decide, by decide, hc.symm⟩)
  split
  . next hc => exact .inr (.inl ⟨'t', rfl, by decide, by decide, hc.symm⟩)
  split
  . next hc => exact .inr (.inl ⟨'n', rfl, by decide, by decide, hc.symm⟩)
  split
  . next hc => exact .inr (.inl ⟨'r', rfl, by decide, by decide, hc.symm⟩)
  split
  . next hc =>
    refine .inr (.inl ⟨c, rfl, ?_⟩)
    rcases hc with rfl | rfl
    . decide
    . rcases hmark with rfl | rfl
      all_goals decide
  split
  . exact .inr (.inr rfl)
  . next hc _ => exact .inl ⟨rfl, fun h => hc (.inl h), fun h => hc (.inr h), by assumption⟩

theorem codePointEscape_append_inj (h : codePointEscape c ++ rest = codePointEscape d ++ rest') :
    c = d ∧ rest = rest' := by
  have hbrace : ∀ n, '\x7d' ∉ Nat.toDigits 16 n :=
    not_mem_toDigits (by decide) fun _ => Nat.digitChar_ne _ (by decide)
  simp only [codePointEscape, List.cons_append, List.append_assoc, List.cons.injEq,
    true_and] at h
  rcases append_cons_inj (hbrace _) (hbrace _) h with ⟨hdigits, hrest⟩
  have hcode := toDigits_inj (by decide) (by decide) hdigits
  exact ⟨Char.toNat_inj.mp hcode, hrest⟩

theorem escape_append_inj (hmark : IsMark mark)
    (h : escape mark c ++ rest = escape mark d ++ rest') : c = d ∧ rest = rest' := by
  rcases escape_cases hmark c with ⟨hc, hplain, -⟩ | ⟨letter, hc, hu, -, hletter⟩ | hc
  all_goals
    rcases escape_cases hmark d with ⟨hd, hplain', -⟩ | ⟨letter', hd, hu', -, hletter'⟩ | hd
    all_goals rw [hc, hd] at h
  . injection h with hhead hrest
    exact ⟨hhead, hrest⟩
  . injection h with hhead
    contradiction
  . injection h with hhead
    contradiction
  . injection h with hhead
    exact absurd hhead.symm hplain'
  . injection h with _ h
    injection h with hhead hrest
    rw [← hletter, ← hletter', hhead]
    exact ⟨rfl, hrest⟩
  . injection h with _ h
    injection h with hhead
    contradiction
  . injection h with hhead
    exact absurd hhead.symm hplain'
  . injection h with _ h
    injection h with hhead
    exact absurd hhead.symm hu'
  . exact codePointEscape_append_inj h

theorem head?_escape_ne (hmark : IsMark mark) (c : Char) :
    ∃ first inner, escape mark c = first :: inner ∧ first ≠ mark := by
  have hbackslash : '\\' ≠ mark := by
    rcases hmark with rfl | rfl
    all_goals decide
  rcases escape_cases hmark c with ⟨hc, -, hne, -⟩ | ⟨letter, hc, -⟩ | hc
  . exact ⟨_, _, hc, hne⟩
  . exact ⟨_, _, hc, hbackslash⟩
  . exact ⟨_, _, hc, hbackslash⟩

theorem escaped_append_inj (hmark : IsMark mark)
    (h : text.flatMap (escape mark) ++ mark :: rest =
      text'.flatMap (escape mark) ++ mark :: rest') :
    text = text' ∧ rest = rest' := by
  induction text generalizing text' with
  | nil =>
    cases text' with
    | nil =>
      injection h with _ hrest
      exact ⟨rfl, hrest⟩
    | cons d text' =>
      rcases head?_escape_ne hmark d with ⟨first, inner, hd, hne⟩
      rw [List.flatMap_cons, hd] at h
      injection h with hhead
      exact absurd hhead.symm hne
  | cons c text ih =>
    cases text' with
    | nil =>
      rcases head?_escape_ne hmark c with ⟨first, inner, hc, hne⟩
      rw [List.flatMap_cons, hc] at h
      injection h with hhead
      contradiction
    | cons d text' =>
      rw [List.flatMap_cons, List.flatMap_cons, List.append_assoc, List.append_assoc] at h
      rcases escape_append_inj hmark h with ⟨rfl, hinner⟩
      rcases ih hinner with ⟨rfl, hrest⟩
      exact ⟨rfl, hrest⟩

theorem length_le_escaped (hmark : IsMark mark) (text : List Char) :
    text.length ≤ (text.flatMap (escape mark)).length := by
  induction text with
  | nil => apply Nat.zero_le
  | cons c text ih =>
    rcases head?_escape_ne hmark c with ⟨first, inner, hc, -⟩
    rw [List.flatMap_cons, hc]
    simp only [List.length_cons, List.length_append]
    omega

theorem not_mem_of_escaped_eq (hmark : IsMark mark) (h : text.flatMap (escape mark) = text) :
    mark ∉ text := by
  induction text with
  | nil => apply List.not_mem_nil
  | cons c text ih =>
    rcases head?_escape_ne hmark c with ⟨first, inner, hc, hne⟩
    rw [List.flatMap_cons, hc, List.cons_append] at h
    injection h with hhead htail
    have hlength := congrArg List.length htail
    have hle := length_le_escaped hmark text
    rw [List.length_append] at hlength
    have hinner : inner = [] := List.eq_nil_of_length_eq_zero (by omega)
    rw [hinner] at htail
    rw [List.mem_cons, not_or, ← hhead]
    exact ⟨hne.symm, ih htail⟩

theorem quote_append_inj (hmark : IsMark mark)
    (h : quote mark text ++ rest = quote mark text' ++ rest') : text = text' ∧ rest = rest' := by
  simp only [quote, List.cons_append, List.append_assoc, List.cons.injEq, true_and] at h
  exact escaped_append_inj hmark h

theorem quoteChar_inj (h : quoteChar c = quoteChar d) : c = d := by
  have hmark : IsMark '\'' := .inr rfl
  have hquote : quote '\'' [c] ++ [] = quote '\'' [d] ++ [] := by
    rw [← toList_quoteChar, ← toList_quoteChar, h]
  rcases quote_append_inj hmark hquote with ⟨htext, -⟩
  injection htext

theorem quoteString_inj {s t : String} (h : quoteString s = quoteString t) : s = t := by
  have hmark : IsMark '"' := .inl rfl
  have hquote : quote '"' s.toList ++ [] = quote '"' t.toList ++ [] := by
    rw [← toList_quoteString, ← toList_quoteString, h]
  rcases quote_append_inj hmark hquote with ⟨htext, -⟩
  exact String.toList_inj.mp htext

theorem not_mem_escape (hmark : IsMark mark) (c : Char) : '\n' ∉ escape mark c := by
  rcases escape_cases hmark c with ⟨hc, -, -, hne⟩ | ⟨letter, hc, -, hne, -⟩ | hc
  . simpa [hc] using hne.symm
  . simpa [hc] using hne.symm
  . have hdigits : '\n' ∉ Nat.toDigits 16 c.toNat :=
      not_mem_toDigits (by decide) (fun _ => Nat.digitChar_ne _ (by decide)) _
    simpa [hc, codePointEscape] using hdigits

theorem not_mem_quote (hmark : IsMark mark) (text : List Char) : '\n' ∉ quote mark text := by
  have hne : '\n' ≠ mark := by
    rcases hmark with rfl | rfl
    all_goals decide
  have hinner : '\n' ∉ text.flatMap (escape mark) := by
    rw [List.mem_flatMap]
    rintro ⟨c, -, hc⟩
    exact not_mem_escape hmark c hc
  simp only [quote, List.cons_append, List.mem_cons, List.mem_append, not_or]
  exact ⟨hne, hinner, hne, List.not_mem_nil⟩

end SketchLang.Text
