import SketchLang.Proofs.Tree.Layout

namespace SketchLang

namespace Node

open Form

def names : Node → List String
  | var name _ => [name]
  | func name params _ => name :: params
  | set _ property _ => [property]
  | count id _ _ _ => [id]
  | struct name members => name :: members
  | new name members => name :: members.map (·.1)
  | get _ (.named name) => [name]
  | literal _ | binary _ _ _ | array _ | ret _ | conditional _ _ _ | loop _ _ | call _ _
  | get _ (.computed _) | unary _ _ => []

inductive Legible : Node → Prop
  | intro {node : Node} (hnames : ∀ name ∈ node.names, Lexeme.IsWord name.toList)
    (hnumber : ∀ x, node = literal (.number x) → x.isNaN = false)
    (hchildren : ∀ child ∈ node.children, Legible child) : Legible node

theorem Legible.isWord {node : Node} (h : Legible node) {name : String}
    (hname : name ∈ node.names) : Lexeme.IsWord name.toList := by
  cases h with
  | intro hnames => exact hnames name hname

theorem Legible.isNaN {x : Binary64} (h : Legible (literal (.number x))) : x.isNaN = false := by
  cases h with
  | intro _ hnumber => exact hnumber x rfl

theorem Legible.child {node child : Node} (h : Legible node) (hchild : child ∈ node.children) :
    Legible child := by
  cases h with
  | intro _ _ hchildren => exact hchildren child hchild

end Node

namespace Form

theorem isPlain_of_isDigit {c : Char} (hc : Lexeme.IsDigit c) : isPlain c :=
  isPlain_of_isWordRest (.inr hc)

theorem isAtom_of_isWord {text : List Char} (h : Lexeme.IsWord text) : IsAtom text := by
  apply IsAtom.bare
  apply isBare_of_isPlain
  . rcases h with ⟨c, rest, rfl, -⟩
    simp
  . intro c hc
    apply isPlain_of_isWordRest
    exact Lexeme.isLetter_or_isDigit_of_mem h hc

theorem isBare_decimal (d : Decimal) : IsBare d.text := by
  have hwhole : ∀ n, ∀ c ∈ Nat.toDigits 10 n, isPlain c := by
    intro n c hc
    apply isPlain_of_isDigit
    exact Decimal.isDigit_of_mem_toDigits hc
  by_cases h : d.places = 0
  . rw [Decimal.text_of_places_eq_zero h]
    exact isBare_of_isPlain Nat.toDigits_ne_nil (hwhole _)
  . rw [Decimal.text_of_places_ne_zero h]
    apply IsBare.intro Nat.toDigits_ne_nil (hwhole _)
    apply IsFraction.digits
    . intro hnil
      have hlength := Decimal.length_fraction h
      rw [hnil] at hlength
      exact h hlength.symm
    . intro c
      apply Decimal.isDigit_of_mem_fraction

theorem isBare_number {x : Binary64} (h : x.isNaN = false) : IsBare x.text.toList := by
  have hmagnitude : IsBare x.magnitudeText := by
    unfold Binary64.magnitudeText
    split
    . apply isBare_decimal
    . apply isBare_of_isPlain (by decide)
      exact List.all_eq_true.mp (by decide)
  rw [Binary64.toList_text h]
  split
  . apply hmagnitude.cons
    decide
  . exact hmagnitude

def heads : List Head :=
  [.var, .func, .ret, .conditional, .set, .count, .loop, .struct, .new, .call] ++
    Token.Kind.all.map .operator

theorem mem_heads (head : Head) : head ∈ heads := by
  cases head with
  | operator op => simp [heads, Token.Kind.mem_all op]
  | _ => simp [heads]

theorem head_text_inj {head head' : Head} (h : head.text = head'.text) : head = head' := by
  have htable : ∀ head ∈ heads, ∀ head' ∈ heads, head.text = head'.text → head = head' := by
    decide +kernel
  exact htable head (mem_heads head) head' (mem_heads head') h

theorem isAtom_head (head : Head) : IsAtom head.text.toList := by
  have htable : ∀ head ∈ heads, head.text.toList ≠ [] ∧ head.text.toList.all isPlain := by
    decide +kernel
  rcases htable head (mem_heads head) with ⟨hne, hplain⟩
  exact .bare (isBare_of_isPlain hne (List.all_eq_true.mp hplain))

theorem isBare_boolean (b : Bool) : IsBare (Literal.boolean b).render.toList := by
  cases b with
  | true => exact isBare_of_isPlain (by decide) (List.all_eq_true.mp (by decide))
  | false => exact isBare_of_isPlain (by decide) (List.all_eq_true.mp (by decide))

theorem isAtom_literal {l : Literal} (h : ∀ x, l = .number x → x.isNaN = false) :
    IsAtom l.render.toList := by
  cases l with
  | number x => exact .bare (isBare_number (h x rfl))
  | string s =>
    unfold Literal.render
    rw [Text.toList_quoteString]
    apply IsAtom.quoted
  | boolean b => exact .bare (isBare_boolean b)

section Legible

variable {accesses : Form .accesses} {operands items : List (Form .item)}

theorem legible_word {s : String} (h : Lexeme.IsWord s.toList) : (word s).Legible :=
  ⟨isAtom_of_isWord h, trivial⟩

theorem legible_words {names : List String} (h : ∀ name ∈ names, Lexeme.IsWord name.toList) :
    ∀ item ∈ names.map word, item.Legible := by
  intro item hitem
  rcases List.mem_map.mp hitem with ⟨name, hname, rfl⟩
  apply legible_word
  exact h name hname

theorem legible_ofArgs (h : ∀ item ∈ items, item.Legible) : (ofArgs items).Legible := by
  induction items with
  | nil => trivial
  | cons item items ih =>
    rw [List.forall_mem_cons] at h
    exact ⟨h.1, ih h.2⟩

theorem legible_ofSeq (h : ∀ item ∈ items, item.Legible) : (ofSeq items).Legible := by
  cases items with
  | nil => trivial
  | cons item items =>
    rw [List.forall_mem_cons] at h
    exact ⟨h.1, legible_ofArgs h.2⟩

theorem legible_parens (h : ∀ item ∈ items, item.Legible) : (parens items).Legible :=
  ⟨legible_ofSeq h, trivial⟩

theorem legible_headed (head : Head) (hoperands : ∀ item ∈ operands, item.Legible)
    (haccesses : accesses.Legible) : (headed head operands accesses).Legible :=
  ⟨⟨⟨isAtom_head head, trivial⟩, legible_ofArgs hoperands⟩, haccesses⟩

end Legible

end Form

namespace Node

open Form

def FormLegible (node : Node) : Prop :=
  ∀ accesses : Form .accesses, accesses.Legible → (node.form accesses).Legible

section Legible

theorem legible_forms {nodes : List Node} (h : ∀ node ∈ nodes, FormLegible node) :
    ∀ item ∈ forms nodes, item.Legible := by
  induction nodes with
  | nil => simp [forms]
  | cons node nodes ih =>
    rw [List.forall_mem_cons] at h
    rw [forms, List.forall_mem_cons]
    exact ⟨h.1 .done trivial, ih h.2⟩

theorem legible_memberForms {members : List (String × Node)}
    (hnames : ∀ name ∈ members.map (·.1), Lexeme.IsWord name.toList)
    (h : ∀ node ∈ members.map (·.2), FormLegible node) :
    ∀ item ∈ memberForms members, item.Legible := by
  induction members with
  | nil => simp [memberForms]
  | cons member members ih =>
    rcases member with ⟨name, value⟩
    rw [List.map_cons, List.forall_mem_cons] at hnames h
    rw [memberForms, List.forall_mem_cons]
    refine ⟨legible_parens ?_, ih hnames.2 h.2⟩
    simp [legible_word hnames.1, h.1 .done trivial]

theorem legible_otherwiseForms {otherwise : Option (List Node)}
    (h : ∀ node ∈ otherwise.getD [], FormLegible node) :
    ∀ item ∈ otherwiseForms otherwise, item.Legible := by
  cases otherwise with
  | none => simp [otherwiseForms]
  | some body =>
    rw [Option.getD_some] at h
    simp [otherwiseForms, legible_parens (legible_forms h)]

theorem formLegible {node : Node} (h : Legible node) : FormLegible node := by
  induction node using children_induction with
  | step node ih =>
    have hchildren : ∀ child ∈ node.children, FormLegible child :=
      fun child hchild => ih child hchild (h.child hchild)
    have hnames : ∀ name ∈ node.names, Lexeme.IsWord name.toList := fun name => h.isWord
    intro accesses haccesses
    cases node with
    | literal l =>
      refine ⟨isAtom_literal ?_, haccesses⟩
      rintro x rfl
      exact h.isNaN
    | var name value =>
      simp only [children, names, List.forall_mem_singleton] at hchildren hnames
      apply legible_headed _ _ haccesses
      simp [legible_word hnames, hchildren .done trivial]
    | binary left op right =>
      simp only [children, List.forall_mem_cons] at hchildren
      apply legible_headed _ _ haccesses
      simp [hchildren.1 .done trivial, hchildren.2.1 .done trivial]
    | array elements => exact ⟨legible_ofSeq (legible_forms hchildren), haccesses⟩
    | func name params body =>
      rw [children] at hchildren
      rw [names, List.forall_mem_cons] at hnames
      apply legible_headed _ _ haccesses
      simp [legible_word hnames.1, legible_parens (legible_words hnames.2),
        legible_parens (legible_forms hchildren)]
    | ret value =>
      simp only [children, List.forall_mem_singleton] at hchildren
      apply legible_headed _ _ haccesses
      simp [hchildren .done trivial]
    | conditional condition body otherwise =>
      simp only [children, List.cons_append, List.forall_mem_cons, List.forall_mem_append]
        at hchildren
      apply legible_headed _ _ haccesses
      rw [List.forall_mem_cons, List.forall_mem_cons]
      exact ⟨hchildren.1 .done trivial, legible_parens (legible_forms hchildren.2.1),
        legible_otherwiseForms hchildren.2.2⟩
    | set caller property value =>
      simp only [children, names, List.forall_mem_cons] at hchildren hnames
      apply legible_headed _ _ haccesses
      have hproperty : (Form.named property.toList .done).Legible := ⟨hnames.1, trivial⟩
      simp [hchildren.1 _ hproperty, hchildren.2.1 .done trivial]
    | count id start stop body =>
      simp only [children, names, List.forall_mem_cons] at hchildren hnames
      apply legible_headed _ _ haccesses
      have hrange : (parens [start.form .done, stop.form .done]).Legible := by
        apply legible_parens
        simp [hchildren.1 .done trivial, hchildren.2.1 .done trivial]
      simp [legible_word hnames.1, hrange, legible_parens (legible_forms hchildren.2.2)]
    | loop condition body =>
      simp only [children, List.forall_mem_cons] at hchildren
      apply legible_headed _ _ haccesses
      simp [hchildren.1 .done trivial, legible_parens (legible_forms hchildren.2)]
    | struct name members =>
      simp only [names, List.forall_mem_cons] at hnames
      apply legible_headed _ _ haccesses
      simp [legible_word hnames.1, legible_parens (legible_words hnames.2)]
    | new name members =>
      simp only [names, List.forall_mem_cons] at hnames
      apply legible_headed _ _ haccesses
      rw [List.forall_mem_cons]
      exact ⟨legible_word hnames.1, legible_memberForms hnames.2 hchildren⟩
    | call caller args =>
      simp only [children, List.forall_mem_cons] at hchildren
      apply legible_headed _ _ haccesses
      rw [List.forall_mem_cons]
      exact ⟨hchildren.1 .done trivial, legible_forms hchildren.2⟩
    | get caller property =>
      cases property with
      | named name =>
        simp only [children, names, List.forall_mem_singleton] at hchildren hnames
        exact hchildren _ ⟨hnames, haccesses⟩
      | computed index =>
        simp only [children, List.forall_mem_cons] at hchildren
        exact hchildren.1 _ ⟨hchildren.2.1 .done trivial, haccesses⟩
    | unary op operand =>
      simp only [children, List.forall_mem_singleton] at hchildren
      apply legible_headed _ _ haccesses
      simp [hchildren .done trivial]

end Legible

end Node

end SketchLang
