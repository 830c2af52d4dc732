import SketchLang.Proofs.Lexeme.Grammar
import SketchLang.Proofs.Text.Quoted

namespace SketchLang

/--
What a part of a text is: an item, the accesses behind an item, items with a blank before each, or
items with a blank between any two.
-/
inductive Place where
  | item
  | accesses
  | args
  | seq

inductive Form : Place → Type where
  | atom (text : List Char) (accesses : Form .accesses) : Form .item
  | group (inner : Form .seq) (accesses : Form .accesses) : Form .item
  | array (inner : Form .seq) (accesses : Form .accesses) : Form .item
  | done : Form .accesses
  | named (name : List Char) (accesses : Form .accesses) : Form .accesses
  | computed (index : Form .item) (accesses : Form .accesses) : Form .accesses
  | nil : Form .args
  | cons (item : Form .item) (items : Form .args) : Form .args
  | empty : Form .seq
  | first (item : Form .item) (items : Form .args) : Form .seq

namespace Form

def text : {place : Place} → Form place → List Char
  | _, atom text accesses => text ++ accesses.text
  | _, group inner accesses => '(' :: inner.text ++ ')' :: accesses.text
  | _, array inner accesses => '[' :: inner.text ++ ']' :: accesses.text
  | _, done => []
  | _, named name accesses => '.' :: name ++ accesses.text
  | _, computed index accesses => '[' :: index.text ++ ']' :: accesses.text
  | _, nil => []
  | _, cons item items => ' ' :: item.text ++ items.text
  | _, empty => []
  | _, first item items => item.text ++ items.text

def special : List Char := [' ', '(', ')', '[', ']', '.', '"']

def isPlain (c : Char) : Bool := c ∉ special

inductive IsFraction : List Char → Prop
  | none : IsFraction []
  | digits {fraction : List Char} (hne : fraction ≠ [])
    (hfraction : ∀ c ∈ fraction, Lexeme.IsDigit c) : IsFraction ('.' :: fraction)

inductive IsBare : List Char → Prop
  | intro {whole fraction : List Char} (hne : whole ≠ []) (hwhole : ∀ c ∈ whole, isPlain c)
    (hfraction : IsFraction fraction) : IsBare (whole ++ fraction)

inductive IsAtom : List Char → Prop
  | quoted (text : List Char) : IsAtom (Text.quote '"' text)
  | bare {text : List Char} (h : IsBare text) : IsAtom text

def Legible : {place : Place} → Form place → Prop
  | _, atom text accesses => IsAtom text ∧ accesses.Legible
  | _, group inner accesses => inner.Legible ∧ accesses.Legible
  | _, array inner accesses => inner.Legible ∧ accesses.Legible
  | _, done => True
  | _, named name accesses => Lexeme.IsWord name ∧ accesses.Legible
  | _, computed index accesses => index.Legible ∧ accesses.Legible
  | _, nil => True
  | _, cons item items => item.Legible ∧ items.Legible
  | _, empty => True
  | _, first item items => item.Legible ∧ items.Legible

def stops : Place → List Char
  | .item | .accesses => [' ', ')', ']']
  | .args | .seq => [')', ']']

def Ends (place : Place) (rest : List Char) : Prop :=
  ∀ c, rest.head? = some c → c ∈ stops place

structure Follows (rest : List Char) : Prop where
  head : ∀ c, rest.head? = some c → isPlain c = false
  point : ∀ c tail, rest = '.' :: c :: tail → ¬ Lexeme.IsDigit c

variable {place : Place} {c : Char} {text text' rest rest' : List Char}

theorem mem_stops_of_close (hc : c = ')' ∨ c = ']') (place : Place) : c ∈ stops place := by
  rcases hc with rfl | rfl
  all_goals
    cases place
    all_goals decide

theorem ends_close (hc : c = ')' ∨ c = ']') (place : Place) (rest : List Char) :
    Ends place (c :: rest) := by
  intro d hd
  injection hd with hd
  rw [← hd]
  exact mem_stops_of_close hc place

theorem isPlain_of_isWordRest (hc : Lexeme.IsLetter c ∨ Lexeme.IsDigit c) : isPlain c := by
  unfold isPlain
  rw [decide_eq_true_eq]
  intro hmem
  have hspecial : special.all (fun c => ¬ (Lexeme.IsLetter c ∨ Lexeme.IsDigit c)) := by decide
  exact of_decide_eq_true (List.all_eq_true.mp hspecial c hmem) hc

theorem isPlain_of_mem_special (hc : c ∈ special) : isPlain c = false := by
  unfold isPlain
  simpa using hc

theorem Follows.not_isDigit (h : Follows rest) (hc : rest.head? = some c) :
    ¬ Lexeme.IsDigit c := by
  intro hdigit
  have hplain := h.head c hc
  rw [isPlain_of_isWordRest (.inr hdigit)] at hplain
  contradiction

theorem follows_of_ends (h : Ends .accesses rest) : Follows rest := by
  have hstops : stops .accesses ⊆ special := by decide
  constructor
  . intro c hc
    apply isPlain_of_mem_special
    exact hstops (h c hc)
  . rintro c tail rfl
    exact absurd (h '.' rfl) (by decide)

theorem follows_text {accesses : Form .accesses} (hlegible : accesses.Legible)
    (h : Ends .accesses rest) : Follows (accesses.text ++ rest) := by
  cases accesses with
  | done => exact follows_of_ends h
  | named name accesses =>
    rcases hlegible.1 with ⟨c, inner, rfl, hc, -⟩
    constructor
    . intro d hd
      injection hd with hd
      rw [← hd]
      decide
    . intro d tail heq
      injection heq with _ heq
      injection heq with hhead
      rw [← hhead]
      intro hdigit
      exact Lexeme.not_isLetter_of_isDigit hdigit hc
  | computed index accesses =>
    constructor
    . intro d hd
      injection hd with hd
      rw [← hd]
      decide
    . intro d tail heq
      injection heq with hhead
      contradiction

theorem isBare_of_isPlain (hne : text ≠ []) (htext : ∀ c ∈ text, isPlain c) : IsBare text := by
  rw [← List.append_nil text]
  exact .intro hne htext .none

theorem IsBare.cons (hc : isPlain c) (h : IsBare text) : IsBare (c :: text) := by
  cases h with
  | intro hne hwhole hfraction =>
    rw [← List.cons_append]
    apply IsBare.intro (by simp)
    . rw [List.forall_mem_cons]
      exact ⟨hc, hwhole⟩
    . exact hfraction

theorem head_bare (h : IsBare text) : ∃ c tail, text = c :: tail ∧ c ∉ special := by
  cases h with
  | @intro whole fraction hne hwhole =>
    cases whole with
    | nil => contradiction
    | cons c whole =>
      have hc := hwhole c (by simp)
      exact ⟨c, whole ++ fraction, rfl, by simpa [isPlain] using hc⟩

theorem head_fraction {fraction : List Char} (hfraction : IsFraction fraction)
    (hrest : Follows rest) (hc : (fraction ++ rest).head? = some c) : isPlain c = false := by
  cases hfraction with
  | none => exact hrest.head c hc
  | digits =>
    injection hc with hc
    rw [← hc]
    decide

theorem fraction_append_inj {fraction fraction' : List Char} (h : IsFraction fraction)
    (h' : IsFraction fraction') (hrest : Follows rest) (hrest' : Follows rest')
    (heq : fraction ++ rest = fraction' ++ rest') : fraction = fraction' ∧ rest = rest' := by
  cases h with
  | none =>
    cases h' with
    | none => exact ⟨rfl, heq⟩
    | @digits fraction' hne hfraction =>
      cases fraction' with
      | nil => contradiction
      | cons c fraction' => exact absurd (hfraction c (by simp)) (hrest.point c _ heq)
  | @digits fraction hne hfraction =>
    cases h' with
    | none =>
      cases fraction with
      | nil => contradiction
      | cons c fraction => exact absurd (hfraction c (by simp)) (hrest'.point c _ heq.symm)
    | @digits fraction' hne' hfraction' =>
      injection heq with _ heq
      have hdigit : ∀ rest, Follows rest → ∀ c, rest.head? = some c → c.isDigit = false := by
        intro rest hrest c hc
        rw [Bool.eq_false_iff, ne_eq, Lexeme.isDigit_iff]
        exact hrest.not_isDigit hc
      simp only [← Lexeme.isDigit_iff] at hfraction hfraction'
      rcases Text.run_append_inj hfraction (hdigit _ hrest) hfraction' (hdigit _ hrest') heq with
        ⟨rfl, hsame⟩
      exact ⟨rfl, hsame⟩

theorem bare_append_inj (htext : IsBare text) (htext' : IsBare text') (hrest : Follows rest)
    (hrest' : Follows rest') (h : text ++ rest = text' ++ rest') : text = text' ∧ rest = rest' := by
  cases htext with
  | intro hne hwhole hfraction =>
    cases htext' with
    | intro hne' hwhole' hfraction' =>
      rw [List.append_assoc, List.append_assoc] at h
      rcases Text.run_append_inj hwhole (fun c => head_fraction hfraction hrest) hwhole'
        (fun c => head_fraction hfraction' hrest') h with ⟨rfl, htail⟩
      rcases fraction_append_inj hfraction hfraction' hrest hrest' htail with ⟨rfl, hsame⟩
      exact ⟨rfl, hsame⟩

theorem quote_ne_bare (inner : List Char) (h : IsBare text) :
    Text.quote '"' inner ++ rest ≠ text ++ rest' := by
  rcases head_bare h with ⟨c, tail, rfl, hc⟩
  intro heq
  injection heq with hhead
  rw [← hhead] at hc
  exact absurd (by decide) hc

theorem atom_append_inj (htext : IsAtom text) (htext' : IsAtom text') (hrest : Follows rest)
    (hrest' : Follows rest') (h : text ++ rest = text' ++ rest') : text = text' ∧ rest = rest' := by
  cases htext with
  | quoted inner =>
    cases htext' with
    | quoted inner' =>
      rcases Text.quote_append_inj (.inl rfl) h with ⟨rfl, hsame⟩
      exact ⟨rfl, hsame⟩
    | bare hbare => exact absurd h (quote_ne_bare inner hbare)
  | bare hbare =>
    cases htext' with
    | quoted inner' => exact absurd h.symm (quote_ne_bare inner' hbare)
    | bare hbare' => exact bare_append_inj hbare hbare' hrest hrest' h

theorem head_atom (h : IsAtom text) :
    ∃ c tail, text = c :: tail ∧ c ∉ [' ', '(', ')', '[', ']'] := by
  cases h with
  | quoted inner => exact ⟨'"', _, rfl, by decide⟩
  | bare hbare =>
    rcases head_bare hbare with ⟨c, tail, rfl, hc⟩
    have hspecial : [' ', '(', ')', '[', ']'] ⊆ special := by decide
    exact ⟨c, _, rfl, fun hmem => hc (hspecial hmem)⟩

theorem head_item {item : Form .item} (h : item.Legible) :
    ∃ c tail, item.text = c :: tail ∧ c ∉ stops .item := by
  cases item with
  | atom text accesses =>
    rcases head_atom h.1 with ⟨c, tail, rfl, hc⟩
    have hstops : stops .item ⊆ [' ', '(', ')', '[', ']'] := by decide
    exact ⟨c, _, rfl, fun hmem => hc (hstops hmem)⟩
  | group inner accesses => exact ⟨'(', _, rfl, by decide⟩
  | array inner accesses => exact ⟨'[', _, rfl, by decide⟩

theorem ends_args {items : Form .args} (h : Ends .args rest) : Ends .item (items.text ++ rest) := by
  cases items with
  | nil =>
    intro c hc
    have hstops : stops .args ⊆ stops .item := by decide
    exact hstops (h c hc)
  | cons item items =>
    intro c hc
    injection hc with hc
    rw [← hc]
    decide

theorem name_append_inj {name name' : List Char} (hname : Lexeme.IsWord name)
    (hname' : Lexeme.IsWord name') (hrest : Follows rest) (hrest' : Follows rest')
    (h : name ++ rest = name' ++ rest') : name = name' ∧ rest = rest' := by
  have hplain : ∀ name, Lexeme.IsWord name → ∀ c ∈ name, isPlain c := by
    intro name hname c hc
    apply isPlain_of_isWordRest
    exact Lexeme.isLetter_or_isDigit_of_mem hname hc
  apply Text.run_append_inj (hplain name hname) hrest.head (hplain name' hname') hrest'.head h

theorem atom_ne_open (h : IsAtom text) (hc : c = '(' ∨ c = '[') : text ++ rest ≠ c :: rest' := by
  rcases head_atom h with ⟨d, tail, rfl, hd⟩
  intro heq
  injection heq with heq
  rw [heq] at hd
  rcases hc with rfl | rfl
  all_goals exact absurd (by decide) hd

theorem item_ne_stop {item : Form .item} (h : item.Legible) (hrest' : Ends .seq rest') :
    item.text ++ rest ≠ rest' := by
  rcases head_item h with ⟨c, tail, hc, hmem⟩
  rw [hc]
  rintro rfl
  have hstops : stops .seq ⊆ stops .item := by decide
  exact hmem (hstops (hrest' c rfl))

theorem ne_of_ends (h : Ends place rest) (hc : c ∉ stops place) : rest ≠ c :: rest' := by
  rintro rfl
  exact hc (h c rfl)

def Unique (form : Form place) : Prop :=
  ∀ (form' : Form place) (rest rest' : List Char), form.Legible → form'.Legible →
    Ends place rest → Ends place rest' → form.text ++ rest = form'.text ++ rest' →
      form = form' ∧ rest = rest'

section Unique

variable {inner : Form .seq} {accesses : Form .accesses} {item : Form .item} {items : Form .args}

theorem unique_atom (text : List Char) (haccesses : Unique accesses) :
    Unique (atom text accesses) := by
  intro form' rest rest' hform hform' hrest hrest' h
  simp only [Form.text, List.append_assoc] at h
  cases form' with
  | atom text' accesses' =>
    simp only [Form.text, List.append_assoc] at h
    rcases atom_append_inj hform.1 hform'.1 (follows_text hform.2 hrest)
      (follows_text hform'.2 hrest') h with ⟨rfl, htail⟩
    rcases haccesses _ _ _ hform.2 hform'.2 hrest hrest' htail with ⟨rfl, hsame⟩
    exact ⟨rfl, hsame⟩
  | group => exact absurd h (atom_ne_open hform.1 (.inl rfl))
  | array => exact absurd h (atom_ne_open hform.1 (.inr rfl))

theorem unique_group (hinner : Unique inner) (haccesses : Unique accesses) :
    Unique (group inner accesses) := by
  intro form' rest rest' hform hform' hrest hrest' h
  cases form' with
  | atom text' accesses' =>
    simp only [Form.text, List.append_assoc] at h
    exact absurd h.symm (atom_ne_open hform'.1 (.inl rfl))
  | group inner' accesses' =>
    simp only [Form.text, List.cons_append, List.append_assoc, List.cons.injEq, true_and] at h
    rcases hinner _ _ _ hform.1 hform'.1 (ends_close (.inl rfl) _ _) (ends_close (.inl rfl) _ _) h
      with ⟨rfl, hclose⟩
    injection hclose with _ htail
    rcases haccesses _ _ _ hform.2 hform'.2 hrest hrest' htail with ⟨rfl, hsame⟩
    exact ⟨rfl, hsame⟩
  | array =>
    injection h with hhead
    contradiction

theorem unique_array (hinner : Unique inner) (haccesses : Unique accesses) :
    Unique (array inner accesses) := by
  intro form' rest rest' hform hform' hrest hrest' h
  cases form' with
  | atom text' accesses' =>
    simp only [Form.text, List.append_assoc] at h
    exact absurd h.symm (atom_ne_open hform'.1 (.inr rfl))
  | group =>
    injection h with hhead
    contradiction
  | array inner' accesses' =>
    simp only [Form.text, List.cons_append, List.append_assoc, List.cons.injEq, true_and] at h
    rcases hinner _ _ _ hform.1 hform'.1 (ends_close (.inr rfl) _ _) (ends_close (.inr rfl) _ _) h
      with ⟨rfl, hclose⟩
    injection hclose with _ htail
    rcases haccesses _ _ _ hform.2 hform'.2 hrest hrest' htail with ⟨rfl, hsame⟩
    exact ⟨rfl, hsame⟩

theorem unique_done : Unique done := by
  intro form' rest rest' hform hform' hrest hrest' h
  cases form' with
  | done => exact ⟨rfl, h⟩
  | named => exact absurd h (ne_of_ends hrest (by decide))
  | computed => exact absurd h (ne_of_ends hrest (by decide))

theorem unique_named (name : List Char) (haccesses : Unique accesses) :
    Unique (named name accesses) := by
  intro form' rest rest' hform hform' hrest hrest' h
  cases form' with
  | done => exact absurd h.symm (ne_of_ends hrest' (by decide))
  | named name' accesses' =>
    simp only [Form.text, List.cons_append, List.append_assoc, List.cons.injEq, true_and] at h
    rcases name_append_inj hform.1 hform'.1 (follows_text hform.2 hrest)
      (follows_text hform'.2 hrest') h with ⟨rfl, htail⟩
    rcases haccesses _ _ _ hform.2 hform'.2 hrest hrest' htail with ⟨rfl, hsame⟩
    exact ⟨rfl, hsame⟩
  | computed =>
    injection h with hhead
    contradiction

theorem unique_computed (hitem : Unique item) (haccesses : Unique accesses) :
    Unique (computed item accesses) := by
  intro form' rest rest' hform hform' hrest hrest' h
  cases form' with
  | done => exact absurd h.symm (ne_of_ends hrest' (by decide))
  | named =>
    injection h with hhead
    contradiction
  | computed item' accesses' =>
    simp only [Form.text, List.cons_append, List.append_assoc, List.cons.injEq, true_and] at h
    rcases hitem _ _ _ hform.1 hform'.1 (ends_close (.inr rfl) _ _) (ends_close (.inr rfl) _ _) h
      with ⟨rfl, hclose⟩
    injection hclose with _ htail
    rcases haccesses _ _ _ hform.2 hform'.2 hrest hrest' htail with ⟨rfl, hsame⟩
    exact ⟨rfl, hsame⟩

theorem unique_nil : Unique nil := by
  intro form' rest rest' hform hform' hrest hrest' h
  cases form' with
  | nil => exact ⟨rfl, h⟩
  | cons => exact absurd h (ne_of_ends hrest (by decide))

theorem unique_cons (hitem : Unique item) (hitems : Unique items) : Unique (cons item items) := by
  intro form' rest rest' hform hform' hrest hrest' h
  cases form' with
  | nil => exact absurd h.symm (ne_of_ends hrest' (by decide))
  | cons item' items' =>
    simp only [Form.text, List.cons_append, List.append_assoc, List.cons.injEq, true_and] at h
    rcases hitem _ _ _ hform.1 hform'.1 (ends_args hrest) (ends_args hrest') h with ⟨rfl, htail⟩
    rcases hitems _ _ _ hform.2 hform'.2 hrest hrest' htail with ⟨rfl, hsame⟩
    exact ⟨rfl, hsame⟩

theorem unique_empty : Unique empty := by
  intro form' rest rest' hform hform' hrest hrest' h
  cases form' with
  | empty => exact ⟨rfl, h⟩
  | first item' items' =>
    simp only [Form.text, List.append_assoc, List.nil_append] at h
    exact absurd h.symm (item_ne_stop hform'.1 hrest)

theorem unique_first (hitem : Unique item) (hitems : Unique items) : Unique (first item items) := by
  intro form' rest rest' hform hform' hrest hrest' h
  simp only [Form.text, List.append_assoc] at h
  cases form' with
  | empty => exact absurd h (item_ne_stop hform.1 hrest')
  | first item' items' =>
    simp only [Form.text, List.append_assoc] at h
    rcases hitem _ _ _ hform.1 hform'.1 (ends_args hrest) (ends_args hrest') h with ⟨rfl, htail⟩
    rcases hitems _ _ _ hform.2 hform'.2 hrest hrest' htail with ⟨rfl, hsame⟩
    exact ⟨rfl, hsame⟩

end Unique

theorem unique (form : Form place) : Unique form := by
  induction form with
  | atom text accesses haccesses => exact unique_atom text haccesses
  | group inner accesses hinner haccesses => exact unique_group hinner haccesses
  | array inner accesses hinner haccesses => exact unique_array hinner haccesses
  | done => exact unique_done
  | named name accesses haccesses => exact unique_named name haccesses
  | computed index accesses hindex haccesses => exact unique_computed hindex haccesses
  | nil => exact unique_nil
  | cons item items hitem hitems => exact unique_cons hitem hitems
  | empty => exact unique_empty
  | first item items hitem hitems => exact unique_first hitem hitems

theorem text_inj {form form' : Form place} (hform : form.Legible) (hform' : form'.Legible)
    (h : form.text = form'.text) : form = form' := by
  have hends : Ends place [] := by
    intro c hc
    contradiction
  have hrest : form.text ++ [] = form'.text ++ [] := by rw [h]
  exact (unique form form' [] [] hform hform' hends hends hrest).1

end Form

end SketchLang
