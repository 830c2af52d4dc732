import SketchLang.Position

namespace SketchLang.Position

def reached (mode : LineMode) (text : List Char) : Position :=
  match mode with
  | .flat => ⟨1, text.length⟩
  | .track => ⟨1 + text.count '\n', (text.reverse.takeWhile (· != '\n')).length⟩

theorem reached_nil (mode : LineMode) : reached mode [] = start := by
  cases mode <;> rfl

theorem next_reached (mode : LineMode) (text : List Char) (c : Char) :
    (reached mode text).next mode c = reached mode (text ++ [c]) := by
  cases mode with
  | flat => simp [reached, next]
  | track =>
    by_cases hc : c = '\n'
    . subst hc
      simp [reached, next, List.count_append, Nat.add_assoc]
    . have hcount : [c].count '\n' = 0 := by simp [hc]
      simp [reached, next, List.count_append, hc, hcount]

theorem after_reached (mode : LineMode) (text more : List Char) :
    (reached mode text).after mode more = reached mode (text ++ more) := by
  induction more generalizing text with
  | nil => simp
  | cons c more ih =>
    rw [after_cons]
    rw [next_reached]
    rw [ih]
    simp

theorem after_start (mode : LineMode) (text : List Char) :
    start.after mode text = reached mode text := by
  rw [← reached_nil mode]
  apply after_reached

theorem line_reached_pos (mode : LineMode) (text : List Char) : 0 < (reached mode text).line := by
  cases mode
  all_goals
    simp only [reached]
    omega

theorem line_reached_le (mode : LineMode) (text : List Char) :
    (reached mode text).line ≤ text.length + 1 := by
  cases mode with
  | flat => exact Nat.le_add_left 1 _
  | track =>
    have hcount : text.count '\n' ≤ text.length := List.count_le_length
    simp only [reached]
    omega

theorem column_reached_le (mode : LineMode) (text : List Char) :
    (reached mode text).column ≤ text.length := by
  cases mode with
  | flat => exact Nat.le_refl _
  | track =>
    have hprefix := (List.takeWhile_prefix (l := text.reverse) (· != '\n')).length_le
    rwa [List.length_reverse] at hprefix

def oneBased (mode : LineMode) (before : List Char) : Position :=
  match mode with
  | .flat => ⟨1, 1 + before.length⟩
  | .track => ⟨1 + before.count '\n', 1 + (before.reverse.takeWhile (· != '\n')).length⟩

theorem reached_append_line_feed (before : List Char) :
    reached .track (before ++ ['\n']) = ⟨2 + before.count '\n', 0⟩ := by
  rw [← next_reached]
  simp only [next, reached, and_self, ↓reduceIte, mk.injEq, and_true]
  omega

theorem reached_append_of_not {mode : LineMode} {c : Char} (h : ¬ (mode = .track ∧ c = '\n'))
    (before : List Char) : reached mode (before ++ [c]) = oneBased mode before := by
  have hline : ¬ (c = '\n' ∧ mode = .track) := fun hline => h hline.symm
  rw [← next_reached]
  simp only [next, hline, ↓reduceIte]
  cases mode with
  | flat => simp [reached, oneBased, Nat.add_comm]
  | track => simp [reached, oneBased, Nat.add_comm]

theorem next_of_ne {c : Char} (mode mode' : LineMode) (p : Position) (hc : c ≠ '\n') :
    p.next mode c = p.next mode' c := by
  simp [next, hc]

theorem after_of_not_mem {text : List Char} (mode mode' : LineMode) (p : Position)
    (h : '\n' ∉ text) : p.after mode text = p.after mode' text := by
  induction text generalizing p with
  | nil => rfl
  | cons c text ih =>
    rw [List.mem_cons, not_or] at h
    rw [after_cons, after_cons]
    rw [next_of_ne mode mode' p (Ne.symm h.1)]
    exact ih _ h.2

theorem reached_flat_eq_track_iff (text : List Char) :
    reached .flat text = reached .track text ↔ '\n' ∉ text := by
  constructor
  . intro h
    -- A line feed in the text would show in the line.
    have hline := congrArg Position.line h
    simp only [reached] at hline
    rw [← List.count_eq_zero]
    omega
  . intro h
    rw [← after_start, ← after_start]
    apply after_of_not_mem
    assumption

/--
Where `p` lies if its text does not begin at the start, but where `base` is reached.
-/
def shift (base p : Position) : Position :=
  if p.line = 1 then ⟨base.line, base.column + p.column⟩ else ⟨base.line + p.line - 1, p.column⟩

theorem shift_start (base : Position) : base.shift start = base := by
  simp [shift, start]

theorem next_shift (mode : LineMode) (base p : Position) (c : Char) (hp : 0 < p.line) :
    (base.shift p).next mode c = base.shift (p.next mode c) := by
  unfold next
  by_cases hline : p.line = 1
  . split
    . simp [shift, hline]
    . simp [shift, hline, Nat.add_assoc]
  . split
    . have : p.line + 1 ≠ 1 := by omega
      simp only [shift, hline, this, ↓reduceIte, mk.injEq, and_true]
      omega
    . simp [shift, hline]

theorem after_eq_shift (mode : LineMode) (base : Position) (text : List Char) :
    base.after mode text = base.shift (reached mode text) := by
  -- Whether `base` or the start comes first shows only in the first line, so both sides are
  -- followed from some way into the text.
  suffices h : ∀ done, (base.shift (reached mode done)).after mode text
      = base.shift (reached mode (done ++ text)) by
    have := h []
    rwa [reached_nil, shift_start] at this
  induction text with
  | nil => simp
  | cons c text ih =>
    intro done
    rw [after_cons]
    rw [next_shift]
    . rw [next_reached]
      rw [ih]
      simp
    . apply line_reached_pos

end SketchLang.Position
