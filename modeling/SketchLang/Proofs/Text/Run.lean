namespace SketchLang.Text

variable {p : Char → Bool} {c : Char} {text text' rest rest' : List Char}

theorem takeWhile_run (htext : ∀ c ∈ text, p c)
    (hrest : ∀ c, rest.head? = some c → p c = false) : (text ++ rest).takeWhile p = text := by
  rw [List.takeWhile_append_of_pos htext]
  cases rest with
  | nil => simp
  | cons c rest =>
    rw [List.takeWhile_cons]
    simp [hrest c rfl]

theorem dropWhile_run (htext : ∀ c ∈ text, p c)
    (hrest : ∀ c, rest.head? = some c → p c = false) : (text ++ rest).dropWhile p = rest := by
  rw [List.dropWhile_append_of_pos htext]
  cases rest with
  | nil => rfl
  | cons c rest =>
    rw [List.dropWhile_cons]
    simp [hrest c rfl]

theorem exists_run (p : Char → Bool) (text : List Char) :
    ∃ run rest, text = run ++ rest ∧ (∀ c ∈ run, p c) ∧ ∀ c, rest.head? = some c → p c = false := by
  refine ⟨text.takeWhile p, text.dropWhile p, ?_, ?_, ?_⟩
  . rw [List.takeWhile_append_dropWhile]
  . apply List.all_eq_true.mp
    apply List.all_takeWhile
  . intro c hc
    have := List.head?_dropWhile_not p text
    rw [hc] at this
    simpa using this

theorem run_append_inj (htext : ∀ c ∈ text, p c) (hrest : ∀ c, rest.head? = some c → p c = false)
    (htext' : ∀ c ∈ text', p c) (hrest' : ∀ c, rest'.head? = some c → p c = false)
    (h : text ++ rest = text' ++ rest') : text = text' ∧ rest = rest' := by
  constructor
  . rw [← takeWhile_run htext hrest, h]
    apply takeWhile_run htext' hrest'
  . rw [← dropWhile_run htext hrest, h]
    apply dropWhile_run htext' hrest'

theorem append_cons_inj (htext : c ∉ text) (htext' : c ∉ text')
    (h : text ++ c :: rest = text' ++ c :: rest') : text = text' ∧ rest = rest' := by
  have hrun : ∀ run : List Char, c ∉ run → ∀ d ∈ run, d != c := by
    intro run hc d hd
    rw [bne_iff_ne]
    rintro rfl
    contradiction
  have hsplit := run_append_inj (hrun text htext) (by simp) (hrun text' htext') (by simp) h
  exact ⟨hsplit.1, List.tail_eq_of_cons_eq hsplit.2⟩

end SketchLang.Text
