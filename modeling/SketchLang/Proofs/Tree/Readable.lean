import SketchLang.Proofs.Tree.Legible

/-!
This module contains that the text of a legible tree tells which tree it is (`Node.render_inj`). The
text tells the layout, and from the layout every node is found again together with what it is taken
apart into (`Node.formUnique`).
-/

namespace SketchLang

namespace Literal

theorem ne_boolean_of_number {x : Binary64} (h : x.isNaN = false) (b : Bool) :
    x.text ≠ (boolean b).render := by
  have hhead : ∃ c tail, x.text.toList = c :: tail ∧ (c = '-' ∨ Lexeme.IsDigit c ∨ c = 'i') := by
    rw [Binary64.toList_text h]
    split
    . exact ⟨'-', _, rfl, .inl rfl⟩
    . rcases Binary64.head?_magnitudeText x with ⟨c, tail, hc, ⟨-, hdigit⟩ | ⟨-, hletter⟩⟩
      . exact ⟨c, tail, hc, .inr (.inl hdigit)⟩
      . exact ⟨c, tail, hc, .inr (.inr hletter)⟩
  rcases hhead with ⟨c, tail, hc, hclass⟩
  intro heq
  rw [heq] at hc
  have hletter : c = 't' ∨ c = 'f' := by
    cases b with
    | true =>
      injection hc with hc
      exact .inl hc.symm
    | false =>
      injection hc with hc
      exact .inr hc.symm
  rcases hletter with rfl | rfl
  all_goals exact absurd hclass (by decide)

theorem string_ne_of_isBare {s : String} {text : String} (h : Form.IsBare text.toList) :
    (string s).render ≠ text := by
  have hlist : Text.quote '"' s.toList ++ [] ≠ text.toList ++ [] := Form.quote_ne_bare s.toList h
  rw [← Text.toList_quoteString, List.append_nil, List.append_nil, String.toList_inj.ne] at hlist
  exact hlist

theorem eq_of_render_eq {l l' : Literal} (h : ∀ x, l = number x → x.isNaN = false)
    (h' : ∀ x, l' = number x → x.isNaN = false) (heq : l.render = l'.render) : l = l' := by
  cases l with
  | number x =>
    have hx := h x rfl
    cases l' with
    | number y => rw [Binary64.text_inj hx (h' y rfl) heq]
    | string s => exact absurd heq.symm (string_ne_of_isBare (Form.isBare_number hx))
    | boolean b => exact absurd heq (ne_boolean_of_number hx b)
  | string s =>
    cases l' with
    | number y => exact absurd heq (string_ne_of_isBare (Form.isBare_number (h' y rfl)))
    | string t => rw [Text.quoteString_inj heq]
    | boolean b => exact absurd heq (string_ne_of_isBare (Form.isBare_boolean b))
  | boolean b =>
    cases l' with
    | number y => exact absurd heq.symm (ne_boolean_of_number (h' y rfl) b)
    | string s => exact absurd heq.symm (string_ne_of_isBare (Form.isBare_boolean b))
    | boolean b' =>
      have htable : ∀ b b', (boolean b).render = (boolean b').render → b = b' := by decide
      rw [htable b b' heq]

end Literal

namespace Form

def accessCount : {place : Place} → Form place → Nat
  | _, atom _ accesses | _, group _ accesses | _, array _ accesses => accesses.accessCount
  | _, named _ accesses | _, computed _ accesses => accesses.accessCount + 1
  | _, _ => 0

theorem word_inj {s t : String} : word s = word t ↔ s = t := by
  simp [word, String.toList_inj]

theorem words_inj {names names' : List String} (h : names.map word = names'.map word) :
    names = names' := by
  have hword : ∀ s t, word s = word t → s = t := fun s t => word_inj.mp
  exact (List.map_inj_right hword).mp h

theorem ofArgs_inj {items items' : List (Form .item)} :
    ofArgs items = ofArgs items' ↔ items = items' := by
  induction items generalizing items' with
  | nil => cases items' <;> simp [ofArgs]
  | cons item items ih => cases items' <;> simp [ofArgs, ih]

theorem ofSeq_inj {items items' : List (Form .item)} :
    ofSeq items = ofSeq items' ↔ items = items' := by
  cases items
  all_goals
    cases items'
    all_goals simp [ofSeq, ofArgs_inj]

theorem parens_inj {items items' : List (Form .item)} :
    parens items = parens items' ↔ items = items' := by
  simp [parens, ofSeq_inj]

theorem headed_inj {head head' : Head} {operands operands' : List (Form .item)}
    {accesses accesses' : Form .accesses}
    (h : headed head operands accesses = headed head' operands' accesses') :
    head = head' ∧ operands = operands' ∧ accesses = accesses' := by
  simp only [headed, group.injEq, ofSeq_inj, List.cons.injEq, word_inj] at h
  exact ⟨head_text_inj h.1.1, h.1.2, h.2⟩

end Form

namespace Node

open Form

def head? : Node → Option Head
  | var _ _ => some .var
  | binary _ op _ | unary op _ => some (.operator op)
  | func _ _ _ => some .func
  | ret _ => some .ret
  | conditional _ _ _ => some .conditional
  | set _ _ _ => some .set
  | count _ _ _ _ => some .count
  | loop _ _ => some .loop
  | struct _ _ => some .struct
  | new _ _ => some .new
  | call _ _ => some .call
  | literal _ | array _ | get _ _ => none

/--
Every node behind which nothing is taken has as many accesses in its layout as stand behind it, and
every access has more.
-/
theorem accessCount_form (node : Node) (accesses : Form .accesses) :
    accesses.accessCount ≤ (node.form accesses).accessCount := by
  induction node using children_induction generalizing accesses with
  | step node ih =>
    cases node with
    | get caller property =>
      cases property with
      | named name =>
        have hcaller := ih caller (by simp [children]) (.named name.toList accesses)
        simp only [form, accessCount] at hcaller ⊢
        omega
      | computed index =>
        have hcaller := ih caller (by simp [children]) (.computed (index.form .done) accesses)
        simp only [form, accessCount] at hcaller ⊢
        omega
    | _ => simp [form, headed, accessCount]

theorem accessCount_form_get (caller : Node) (property : Property Node)
    (accesses : Form .accesses) :
    accesses.accessCount < ((get caller property).form accesses).accessCount := by
  cases property with
  | named name => exact accessCount_form caller (.named name.toList accesses)
  | computed index => exact accessCount_form caller (.computed (index.form .done) accesses)

theorem form_cases (node : Node) :
    (∃ l, node = literal l) ∨ (∃ elements, node = array elements) ∨
      (∃ caller property, node = get caller property) ∨
      ∃ head operands, node.head? = some head ∧
        ∀ accesses, node.form accesses = headed head operands accesses := by
  cases node with
  | literal l => exact .inl ⟨l, rfl⟩
  | array elements => exact .inr (.inl ⟨elements, rfl⟩)
  | get caller property => exact .inr (.inr (.inl ⟨caller, property, rfl⟩))
  | _ => exact .inr (.inr (.inr ⟨_, _, rfl, fun _ => rfl⟩))

theorem exists_operands {node : Node} {head : Head} (h : node.head? = some head) :
    ∃ operands, ∀ accesses, node.form accesses = headed head operands accesses := by
  rcases form_cases node with ⟨l, rfl⟩ | ⟨elements, rfl⟩ | ⟨caller, property, rfl⟩ |
    ⟨head', operands, hhead, hform⟩
  . contradiction
  . contradiction
  . contradiction
  . rw [hhead] at h
    injection h with h
    rw [← h]
    exact ⟨operands, hform⟩

section Inversion

variable {node : Node} {accesses accesses' : Form .accesses}
  (hcount : accesses.accessCount = accesses'.accessCount)

include hcount

theorem form_get_ne (caller : Node) (property : Property Node) {form : Form .item}
    (hform : form.accessCount = accesses'.accessCount) :
    (get caller property).form accesses ≠ form := by
  have hless := accessCount_form_get caller property accesses
  intro h
  rw [h] at hless
  omega

theorem head?_of_form_eq {head : Head} {operands : List (Form .item)}
    (h : node.form accesses = headed head operands accesses') : node.head? = some head := by
  rcases form_cases node with ⟨l, rfl⟩ | ⟨elements, rfl⟩ | ⟨caller, property, rfl⟩ |
    ⟨head', operands', hhead, hform⟩
  . injection h
  . injection h
  . exact absurd h (form_get_ne hcount caller property rfl)
  . rw [hform] at h
    rw [hhead, (headed_inj h).1]

theorem literal_of_form_eq {text : List Char} (h : node.form accesses = .atom text accesses') :
    ∃ l, node = literal l ∧ l.render.toList = text ∧ accesses = accesses' := by
  rcases form_cases node with ⟨l, rfl⟩ | ⟨elements, rfl⟩ | ⟨caller, property, rfl⟩ |
    ⟨head', operands', hhead, hform⟩
  . injection h with htext haccesses
    exact ⟨l, rfl, htext, haccesses⟩
  . injection h
  . exact absurd h (form_get_ne hcount caller property rfl)
  . rw [hform] at h
    injection h

theorem array_of_form_eq {inner : Form .seq} (h : node.form accesses = .array inner accesses') :
    ∃ elements, node = array elements ∧ ofSeq (forms elements) = inner ∧ accesses = accesses' := by
  rcases form_cases node with ⟨l, rfl⟩ | ⟨elements, rfl⟩ | ⟨caller, property, rfl⟩ |
    ⟨head', operands', hhead, hform⟩
  . injection h
  . injection h with hinner haccesses
    exact ⟨elements, rfl, hinner, haccesses⟩
  . exact absurd h (form_get_ne hcount caller property rfl)
  . rw [hform] at h
    injection h

theorem get_of_form_eq {caller : Node} {property : Property Node}
    (h : (get caller property).form accesses = node.form accesses') :
    ∃ caller' property', node = get caller' property' := by
  rcases form_cases node with ⟨l, rfl⟩ | ⟨elements, rfl⟩ | ⟨caller', property', rfl⟩ |
    ⟨head', operands', hhead, hform⟩
  . exact absurd h (form_get_ne hcount caller property rfl)
  . exact absurd h (form_get_ne hcount caller property rfl)
  . exact ⟨caller', property', rfl⟩
  . rw [hform] at h
    exact absurd h (form_get_ne hcount caller property rfl)

end Inversion

def FormUnique (a : Node) : Prop :=
  ∀ (b : Node) (accesses accesses' : Form .accesses), Legible a → Legible b →
    accesses.accessCount = accesses'.accessCount → a.form accesses = b.form accesses' →
      a = b ∧ accesses = accesses'

theorem FormUnique.eq {a b : Node} (h : FormUnique a) (ha : Legible a) (hb : Legible b)
    (hform : a.form .done = b.form .done) : a = b :=
  (h b .done .done ha hb rfl hform).1

theorem forms_inj {nodes nodes' : List Node} (h : ∀ node ∈ nodes, FormUnique node)
    (hnodes : ∀ node ∈ nodes, Legible node) (hnodes' : ∀ node ∈ nodes', Legible node)
    (hforms : forms nodes = forms nodes') : nodes = nodes' := by
  induction nodes generalizing nodes' with
  | nil =>
    cases nodes' with
    | nil => rfl
    | cons => contradiction
  | cons node nodes ih =>
    cases nodes' with
    | nil => contradiction
    | cons node' nodes' =>
      rw [List.forall_mem_cons] at h hnodes hnodes'
      injection hforms with hhead htail
      rw [h.1.eq hnodes.1 hnodes'.1 hhead]
      rw [ih h.2 hnodes.2 hnodes'.2 htail]

theorem memberForms_inj {members members' : List (String × Node)}
    (h : ∀ node ∈ members.map (·.2), FormUnique node)
    (hmembers : ∀ node ∈ members.map (·.2), Legible node)
    (hmembers' : ∀ node ∈ members'.map (·.2), Legible node)
    (hforms : memberForms members = memberForms members') : members = members' := by
  induction members generalizing members' with
  | nil =>
    cases members' with
    | nil => rfl
    | cons => contradiction
  | cons member members ih =>
    cases members' with
    | nil => contradiction
    | cons member' members' =>
      rcases member with ⟨name, value⟩
      rcases member' with ⟨name', value'⟩
      rw [List.map_cons, List.forall_mem_cons] at h hmembers hmembers'
      simp only [memberForms, List.cons.injEq, parens_inj, word_inj, and_true] at hforms
      have hvalue : value = value' := h.1.eq hmembers.1 hmembers'.1 hforms.1.2
      rw [hforms.1.1, hvalue, ih h.2 hmembers.2 hmembers'.2 hforms.2]

theorem otherwiseForms_inj {otherwise otherwise' : Option (List Node)}
    (h : ∀ node ∈ otherwise.getD [], FormUnique node)
    (hbody : ∀ node ∈ otherwise.getD [], Legible node)
    (hbody' : ∀ node ∈ otherwise'.getD [], Legible node)
    (hforms : otherwiseForms otherwise = otherwiseForms otherwise') : otherwise = otherwise' := by
  cases otherwise with
  | none =>
    cases otherwise' with
    | none => rfl
    | some => contradiction
  | some body =>
    cases otherwise' with
    | none => contradiction
    | some body' =>
      simp only [otherwiseForms, List.cons.injEq, parens_inj, and_true] at hforms
      have hsame : body = body' := forms_inj h hbody hbody' hforms
      rw [hsame]

def accessForm (property : Property Node) (accesses : Form .accesses) : Form .accesses :=
  match property with
  | .named name => .named name.toList accesses
  | .computed index => .computed (index.form .done) accesses

theorem form_get (caller : Node) (property : Property Node) (accesses : Form .accesses) :
    (get caller property).form accesses = caller.form (accessForm property accesses) := by
  cases property
  all_goals rfl

theorem accessCount_accessForm (property : Property Node) (accesses : Form .accesses) :
    (accessForm property accesses).accessCount = accesses.accessCount + 1 := by
  cases property
  all_goals rfl

theorem formUnique_of_head {a : Node} {head : Head} (hhead : a.head? = some head)
    (h : ∀ b, Legible a → Legible b → b.head? = some head → a.form .done = b.form .done → a = b) :
    FormUnique a := by
  intro b accesses accesses' ha hb hcount hform
  rcases exists_operands hhead with ⟨operands, hoperands⟩
  rw [hoperands] at hform
  have hhead' := head?_of_form_eq hcount.symm hform.symm
  rcases exists_operands hhead' with ⟨operands', hoperands'⟩
  rw [hoperands'] at hform
  rcases headed_inj hform with ⟨-, hsame, haccesses⟩
  have hdone : a.form .done = b.form .done := by rw [hoperands, hoperands', hsame]
  exact ⟨h b ha hb hhead' hdone, haccesses⟩

section Constructors

variable {value left right caller condition operand : Node} {nodes : List Node}

theorem formUnique_literal (l : Literal) : FormUnique (literal l) := by
  intro b accesses accesses' ha hb hcount h
  rcases literal_of_form_eq hcount.symm h.symm with ⟨l', rfl, htext, haccesses⟩
  have hsame : l = l' := by
    apply Literal.eq_of_render_eq
    . rintro x rfl
      exact ha.isNaN
    . rintro x rfl
      exact hb.isNaN
    . exact (String.toList_inj.mp htext).symm
  rw [hsame, haccesses]
  exact ⟨rfl, rfl⟩

theorem formUnique_array (hnodes : ∀ node ∈ nodes, FormUnique node) :
    FormUnique (array nodes) := by
  intro b accesses accesses' ha hb hcount h
  rcases array_of_form_eq hcount.symm h.symm with ⟨nodes', rfl, hinner, haccesses⟩
  have hsame : nodes = nodes' :=
    forms_inj hnodes (fun _ => ha.child) (fun _ => hb.child) (ofSeq_inj.mp hinner).symm
  rw [hsame, haccesses]
  exact ⟨rfl, rfl⟩

theorem formUnique_get {property : Property Node} (hcaller : FormUnique caller)
    (hproperty : ∀ index, property = .computed index → FormUnique index) :
    FormUnique (get caller property) := by
  intro b accesses accesses' ha hb hcount h
  rcases get_of_form_eq hcount h with ⟨caller', property', rfl⟩
  have hlegible : Legible caller := by
    cases property
    all_goals exact ha.child (by simp [children])
  have hlegible' : Legible caller' := by
    cases property'
    all_goals exact hb.child (by simp [children])
  have hmore : (accessForm property accesses).accessCount =
      (accessForm property' accesses').accessCount := by
    rw [accessCount_accessForm, accessCount_accessForm, hcount]
  rw [form_get, form_get] at h
  rcases hcaller _ _ _ hlegible hlegible' hmore h with ⟨rfl, haccesses⟩
  cases property with
  | named name =>
    cases property' with
    | named name' =>
      injection haccesses with hname haccesses
      rw [String.toList_inj.mp hname, haccesses]
      exact ⟨rfl, rfl⟩
    | computed index' => injection haccesses
  | computed index =>
    cases property' with
    | named name' => injection haccesses
    | computed index' =>
      injection haccesses with hindex haccesses
      have hsame : index = index' := (hproperty index rfl).eq (ha.child (by simp [children]))
        (hb.child (by simp [children])) hindex
      rw [hsame, haccesses]
      exact ⟨rfl, rfl⟩

theorem formUnique_var (name : String) (hvalue : FormUnique value) :
    FormUnique (var name value) := by
  apply formUnique_of_head rfl
  intro b ha hb hhead h
  cases b with
  | var name' value' =>
    have hoperands := (headed_inj h).2.1
    simp only [List.cons.injEq, word_inj, and_true] at hoperands
    have hsame : value = value' := hvalue.eq (ha.child (by simp [children]))
      (hb.child (by simp [children])) hoperands.2
    rw [hoperands.1, hsame]
  | _ => simp [head?] at hhead

theorem formUnique_func (name : String) (params : List String)
    (hnodes : ∀ node ∈ nodes, FormUnique node) :
    FormUnique (func name params nodes) := by
  apply formUnique_of_head rfl
  intro b ha hb hhead h
  cases b with
  | func name' params' nodes' =>
    have hoperands := (headed_inj h).2.1
    simp only [List.cons.injEq, word_inj, parens_inj, and_true] at hoperands
    have hsame : nodes = nodes' := forms_inj hnodes
      (fun node hnode => ha.child (by simp [children, hnode]))
      (fun node hnode => hb.child (by simp [children, hnode])) hoperands.2.2
    rw [hoperands.1, words_inj hoperands.2.1, hsame]
  | _ => simp [head?] at hhead

theorem formUnique_ret (hvalue : FormUnique value) :
    FormUnique (ret value) := by
  apply formUnique_of_head rfl
  intro b ha hb hhead h
  cases b with
  | ret value' =>
    have hoperands := (headed_inj h).2.1
    simp only [List.cons.injEq, and_true] at hoperands
    have hsame : value = value' := hvalue.eq (ha.child (by simp [children]))
      (hb.child (by simp [children])) hoperands
    rw [hsame]
  | _ => simp [head?] at hhead

theorem formUnique_conditional {otherwise : Option (List Node)} (hcondition : FormUnique condition)
    (hnodes : ∀ node ∈ nodes, FormUnique node)
    (hotherwise : ∀ node ∈ otherwise.getD [], FormUnique node) :
    FormUnique (conditional condition nodes otherwise) := by
  apply formUnique_of_head rfl
  intro b ha hb hhead h
  cases b with
  | conditional condition' nodes' otherwise' =>
    have hoperands := (headed_inj h).2.1
    simp only [List.cons.injEq, parens_inj] at hoperands
    have hsame : condition = condition' := hcondition.eq (ha.child (by simp [children]))
      (hb.child (by simp [children])) hoperands.1
    have hbody : nodes = nodes' := forms_inj hnodes
      (fun node hnode => ha.child (by simp [children, hnode]))
      (fun node hnode => hb.child (by simp [children, hnode])) hoperands.2.1
    have helse : otherwise = otherwise' := otherwiseForms_inj hotherwise
      (fun node hnode => ha.child (by simp [children, hnode]))
      (fun node hnode => hb.child (by simp [children, hnode])) hoperands.2.2
    rw [hsame, hbody, helse]
  | _ => simp [head?] at hhead

theorem formUnique_set (property : String) (hcaller : FormUnique caller)
    (hvalue : FormUnique value) : FormUnique (set caller property value) := by
  apply formUnique_of_head rfl
  intro b ha hb hhead h
  cases b with
  | set caller' property' value' =>
    have hoperands := (headed_inj h).2.1
    simp only [List.cons.injEq, and_true] at hoperands
    have hlegible : Legible caller := ha.child (by simp [children])
    have hlegible' : Legible caller' := hb.child (by simp [children])
    have hone : (Form.named property.toList .done).accessCount =
        (Form.named property'.toList .done).accessCount := rfl
    rcases hcaller _ _ _ hlegible hlegible' hone hoperands.1 with ⟨rfl, hproperty⟩
    injection hproperty with hproperty
    have hsame : value = value' := hvalue.eq (ha.child (by simp [children]))
      (hb.child (by simp [children])) hoperands.2
    rw [String.toList_inj.mp hproperty, hsame]
  | _ => simp [head?] at hhead

theorem formUnique_count (id : String) (hleft : FormUnique left) (hright : FormUnique right)
    (hnodes : ∀ node ∈ nodes, FormUnique node) :
    FormUnique (count id left right nodes) := by
  apply formUnique_of_head rfl
  intro b ha hb hhead h
  cases b with
  | count id' left' right' nodes' =>
    have hoperands := (headed_inj h).2.1
    simp only [List.cons.injEq, word_inj, parens_inj, and_true] at hoperands
    have hstart : left = left' := hleft.eq (ha.child (by simp [children]))
      (hb.child (by simp [children])) hoperands.2.1.1
    have hstop : right = right' := hright.eq (ha.child (by simp [children]))
      (hb.child (by simp [children])) hoperands.2.1.2
    have hbody : nodes = nodes' := forms_inj hnodes
      (fun node hnode => ha.child (by simp [children, hnode]))
      (fun node hnode => hb.child (by simp [children, hnode])) hoperands.2.2
    rw [hoperands.1, hstart, hstop, hbody]
  | _ => simp [head?] at hhead

theorem formUnique_loop (hcondition : FormUnique condition)
    (hnodes : ∀ node ∈ nodes, FormUnique node) :
    FormUnique (loop condition nodes) := by
  apply formUnique_of_head rfl
  intro b ha hb hhead h
  cases b with
  | loop condition' nodes' =>
    have hoperands := (headed_inj h).2.1
    simp only [List.cons.injEq, parens_inj, and_true] at hoperands
    have hsame : condition = condition' := hcondition.eq (ha.child (by simp [children]))
      (hb.child (by simp [children])) hoperands.1
    have hbody : nodes = nodes' := forms_inj hnodes
      (fun node hnode => ha.child (by simp [children, hnode]))
      (fun node hnode => hb.child (by simp [children, hnode])) hoperands.2
    rw [hsame, hbody]
  | _ => simp [head?] at hhead

theorem formUnique_struct (name : String) (members : List String) :
    FormUnique (struct name members) := by
  apply formUnique_of_head rfl
  intro b ha hb hhead h
  cases b with
  | struct name' members' =>
    have hoperands := (headed_inj h).2.1
    simp only [List.cons.injEq, word_inj, parens_inj, and_true] at hoperands
    rw [hoperands.1, words_inj hoperands.2]
  | _ => simp [head?] at hhead

theorem formUnique_new (name : String) {members : List (String × Node)}
    (hmembers : ∀ node ∈ members.map (·.2), FormUnique node) :
    FormUnique (new name members) := by
  apply formUnique_of_head rfl
  intro b ha hb hhead h
  cases b with
  | new name' members' =>
    have hoperands := (headed_inj h).2.1
    simp only [List.cons.injEq, word_inj] at hoperands
    have hsame : members = members' :=
      memberForms_inj hmembers (fun _ => ha.child) (fun _ => hb.child) hoperands.2
    rw [hoperands.1, hsame]
  | _ => simp [head?] at hhead

theorem formUnique_call (hcaller : FormUnique caller)
    (hnodes : ∀ node ∈ nodes, FormUnique node) :
    FormUnique (call caller nodes) := by
  apply formUnique_of_head rfl
  intro b ha hb hhead h
  cases b with
  | call caller' nodes' =>
    have hoperands := (headed_inj h).2.1
    simp only [List.cons.injEq] at hoperands
    have hsame : caller = caller' := hcaller.eq (ha.child (by simp [children]))
      (hb.child (by simp [children])) hoperands.1
    have hargs : nodes = nodes' := forms_inj hnodes
      (fun node hnode => ha.child (by simp [children, hnode]))
      (fun node hnode => hb.child (by simp [children, hnode])) hoperands.2
    rw [hsame, hargs]
  | _ => simp [head?] at hhead

theorem formUnique_unary (op : Token.Kind) (hoperand : FormUnique operand) :
    FormUnique (unary op operand) := by
  apply formUnique_of_head rfl
  intro b ha hb hhead h
  cases b with
  | unary op' operand' =>
    have hop : op = op' := by
      injection (headed_inj h).1
    have hoperands := (headed_inj h).2.1
    simp only [List.cons.injEq, and_true] at hoperands
    have hsame : operand = operand' := hoperand.eq (ha.child (by simp [children]))
      (hb.child (by simp [children])) hoperands
    rw [hop, hsame]
  | binary left' op' right' =>
    have hoperands := (headed_inj h).2.1
    simp at hoperands
  | _ => simp [head?] at hhead

theorem formUnique_binary (op : Token.Kind) (hleft : FormUnique left)
    (hright : FormUnique right) : FormUnique (binary left op right) := by
  apply formUnique_of_head rfl
  intro b ha hb hhead h
  cases b with
  | binary left' op' right' =>
    have hop : op = op' := by
      injection (headed_inj h).1
    have hoperands := (headed_inj h).2.1
    simp only [List.cons.injEq, and_true] at hoperands
    have hfirst : left = left' := hleft.eq (ha.child (by simp [children]))
      (hb.child (by simp [children])) hoperands.1
    have hsecond : right = right' := hright.eq (ha.child (by simp [children]))
      (hb.child (by simp [children])) hoperands.2
    rw [hop, hfirst, hsecond]
  | unary op' operand' =>
    have hoperands := (headed_inj h).2.1
    simp at hoperands
  | _ => simp [head?] at hhead

end Constructors

theorem formUnique (a : Node) : FormUnique a := by
  induction a using children_induction with
  | step a ih =>
    cases a with
    | literal l => exact formUnique_literal l
    | var name value => exact formUnique_var name (ih value (by simp [children]))
    | binary left op right =>
      exact formUnique_binary op (ih left (by simp [children])) (ih right (by simp [children]))
    | array elements => exact formUnique_array ih
    | func name params body => exact formUnique_func name params ih
    | ret value => exact formUnique_ret (ih value (by simp [children]))
    | conditional condition body otherwise =>
      simp only [children, List.cons_append, List.forall_mem_cons, List.forall_mem_append] at ih
      exact formUnique_conditional ih.1 ih.2.1 ih.2.2
    | set caller property value =>
      exact formUnique_set property (ih caller (by simp [children]))
        (ih value (by simp [children]))
    | count id start stop body =>
      simp only [children, List.forall_mem_cons] at ih
      exact formUnique_count id ih.1 ih.2.1 ih.2.2
    | loop condition body =>
      simp only [children, List.forall_mem_cons] at ih
      exact formUnique_loop ih.1 ih.2
    | struct name members => exact formUnique_struct name members
    | new name members => exact formUnique_new name ih
    | call caller args =>
      simp only [children, List.forall_mem_cons] at ih
      exact formUnique_call ih.1 ih.2
    | get caller property =>
      apply formUnique_get
      . cases property
        all_goals exact ih caller (by simp [children])
      . rintro index rfl
        exact ih index (by simp [children])
    | unary op operand => exact formUnique_unary op (ih operand (by simp [children]))

theorem render_inj {a b : Node} (ha : Legible a) (hb : Legible b) :
    a.render = b.render ↔ a = b := by
  constructor
  . intro h
    have htext : (a.form .done).text = (b.form .done).text := by
      rw [text_form a, text_form b, h]
    have hform := Form.text_inj (formLegible ha .done trivial) (formLegible hb .done trivial) htext
    exact (formUnique a).eq ha hb hform
  . intro h
    rw [h]

theorem render_ne_of_empty_otherwise :
    Legible (conditional (.get (.literal (.number ⟨0x3FF8000000000000⟩)) (.named "e5")) [] none) ∧
    Legible (conditional (.get (.literal (.number ⟨0x3FF8000000000000⟩)) (.named "e5")) []
      (some [])) ∧
    render (conditional (.get (.literal (.number ⟨0x3FF8000000000000⟩)) (.named "e5")) [] none) ≠
      render (conditional (.get (.literal (.number ⟨0x3FF8000000000000⟩)) (.named "e5")) []
        (some [])) := by
  have hnumber : Legible (literal (.number ⟨0x3FF8000000000000⟩)) := by
    apply Legible.intro (by decide)
    . intro x hx
      injection hx with hx
      injection hx with hx
      rw [← hx]
      decide
    . simp [children]
  have hget : Legible (.get (.literal (.number ⟨0x3FF8000000000000⟩)) (.named "e5")) := by
    apply Legible.intro (by decide +kernel)
    . intro x hx
      contradiction
    . simpa [children] using hnumber
  have hnone : Legible (conditional (.get (.literal (.number ⟨0x3FF8000000000000⟩)) (.named "e5"))
      [] none) := by
    apply Legible.intro (by decide)
    . intro x hx
      contradiction
    . simpa [children] using hget
  have hsome : Legible (conditional (.get (.literal (.number ⟨0x3FF8000000000000⟩)) (.named "e5"))
      [] (some [])) := by
    apply Legible.intro (by decide)
    . intro x hx
      contradiction
    . simpa [children] using hget
  refine ⟨hnone, hsome, ?_⟩
  rw [ne_eq, render_inj hnone hsome]
  intro h
  injection h with _ _ h
  contradiction

end Node

end SketchLang
