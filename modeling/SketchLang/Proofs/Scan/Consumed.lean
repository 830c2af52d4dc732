import SketchLang.Proofs.Scan.Fault

namespace SketchLang.Scan

/--
`Consumes mode source text`: the scan of `source` reads `text`, which begins it, and no more. Only
at a character that begins no token text does it end before the source does.
-/
inductive Consumes (mode : LineMode) (source : String) : List Char → Prop
  | accepted (h : Accepts mode source) : Consumes mode source source.toList
  | leavesOpen {before rest : List Char} {mark : Char}
    (h : LeavesOpen mode source before mark rest) : Consumes mode source source.toList
  | stopsAt {before rest : List Char} {c : Char} (h : StopsAt mode source before c rest) :
    Consumes mode source (before ++ [c])

def consumedFrom (pieces : List Piece) : List Char → List Char
  | [] => textOf pieces
  | c :: rest => textOf pieces ++ if Lexeme.isQuote c then c :: rest else [c]

def faultAt (c : Char) : Fault :=
  if Lexeme.isQuote c then .unterminatedString c else .unrecognizedCharacter c

def resultFrom (mode : LineMode) (pieces : List Piece) : List Char → Result
  | [] => .ok (tokensFrom mode .start pieces ++ [.eof (.reached mode (consumedFrom pieces []))])
  | c :: rest => .error ⟨faultAt c, .reached mode (consumedFrom pieces (c :: rest))⟩

variable {mode : LineMode} {source : String} {text before rest : List Char} {c : Char}
  {pieces : List Piece}

theorem consumedFrom_of_stopsAt (h : Cuts source.toList pieces rest)
    (hstops : StopsAt mode source before c text) : consumedFrom pieces rest = before ++ [c] := by
  rcases hstops.haltsAt.exists_cuts with ⟨pieces', htext, hcuts⟩
  rcases h.unique hcuts with ⟨rfl, rfl⟩
  simp [consumedFrom, hstops.not_quote, htext]

theorem consumedFrom_of_leavesOpen (h : Cuts source.toList pieces rest)
    (hopen : LeavesOpen mode source before c text) : consumedFrom pieces rest = source.toList := by
  rcases hopen.haltsAt.exists_cuts with ⟨pieces', htext, hcuts⟩
  rcases h.unique hcuts with ⟨rfl, rfl⟩
  rw [hcuts.text_eq]
  simp [consumedFrom, hopen.quote]

theorem consumedFrom_isPrefix (pieces : List Piece) (rest : List Char) :
    consumedFrom pieces rest <+: textOf pieces ++ rest := by
  cases rest with
  | nil => simp [consumedFrom]
  | cons c rest =>
    simp only [consumedFrom]
    rw [List.prefix_append_right_inj]
    split
    . apply List.prefix_rfl
    . exact ⟨rest, rfl⟩

theorem consumes_iff_of_cuts (mode : LineMode) (h : Cuts source.toList pieces rest) :
    Consumes mode source text ↔ text = consumedFrom pieces rest := by
  constructor
  . intro hconsumes
    cases hconsumes with
    | accepted haccepts =>
      rw [accepts_iff] at haccepts
      rcases haccepts with ⟨pieces', hcuts⟩
      rcases h.unique hcuts with ⟨rfl, rfl⟩
      rw [hcuts.text_eq]
      simp [consumedFrom]
    | leavesOpen hopen => exact (consumedFrom_of_leavesOpen h hopen).symm
    | stopsAt hstops => exact (consumedFrom_of_stopsAt h hstops).symm
  . rintro rfl
    cases rest with
    | nil =>
      have htext : consumedFrom pieces [] = source.toList := by simp [consumedFrom, h.text_eq]
      rw [htext]
      exact .accepted ((accepts_iff mode source).mpr ⟨pieces, h⟩)
    | cons c rest =>
      cases (haltsAt_of_cuts mode h).stopsAt_or_leavesOpen with
      | inl hstops =>
        rw [consumedFrom_of_stopsAt h hstops]
        exact .stopsAt hstops
      | inr hopen =>
        rw [consumedFrom_of_leavesOpen h hopen]
        exact .leavesOpen hopen

theorem errorFrom_eq (mode : LineMode) (pieces : List Piece) (c : Char) (rest : List Char) :
    errorFrom mode (.reached mode (textOf pieces)) c rest =
      ⟨faultAt c, .reached mode (consumedFrom pieces (c :: rest))⟩ := by
  cases hquote : Lexeme.isQuote c with
  | true =>
    simp only [errorFrom, faultAt, consumedFrom, hquote, ↓reduceIte]
    rw [Position.after_reached]
  | false =>
    simp only [errorFrom, faultAt, consumedFrom, hquote, Bool.false_eq_true, ↓reduceIte]
    rw [Position.after_reached]

theorem tokenize_eq_resultFrom (mode : LineMode) (h : Cuts source.toList pieces rest) :
    tokenize mode source = resultFrom mode pieces rest := by
  cases rest with
  | nil =>
    rw [tokenize_of_cuts_nil h]
    rw [h.text_eq, List.append_nil]
    rfl
  | cons c rest =>
    rw [tokenize_of_cuts_cons h]
    rw [errorFrom_eq]
    rfl

theorem exists_consumes_of_tokenize {error : Error} (h : tokenize mode source = .error error) :
    ∃ before c, Consumes mode source (before ++ [c]) ∧
      error.position = .reached mode (before ++ [c]) ∧
      (c = '\n' → ∃ mark, error.fault = .unterminatedString mark) := by
  rcases exists_cuts source.toList with ⟨pieces, rest, hcuts⟩
  cases rest with
  | nil =>
    rw [tokenize_of_cuts_nil hcuts] at h
    contradiction
  | cons c rest =>
    cases (haltsAt_of_cuts mode hcuts).stopsAt_or_leavesOpen with
    | inl hstops =>
      rw [hstops.tokenize_eq] at h
      injection h with h
      subst h
      refine ⟨_, c, .stopsAt hstops, rfl, ?_⟩
      rintro rfl
      exact absurd hstops.not_blank (by decide)
    | inr hopen =>
      have hne : source.toList ≠ [] := by simp [hopen.source_eq]
      have hlast := List.dropLast_concat_getLast hne
      have hconsumes : Consumes mode source source.toList := .leavesOpen hopen
      rw [hopen.tokenize_eq] at h
      injection h with h
      subst h
      rw [← hlast] at hconsumes
      refine ⟨_, _, hconsumes, ?_, ?_⟩
      . rw [hlast]
      . intro _
        exact ⟨c, rfl⟩

end SketchLang.Scan
