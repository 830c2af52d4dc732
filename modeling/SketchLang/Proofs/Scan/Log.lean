import SketchLang.Proofs.Scan.Emitted
import SketchLang.Proofs.Scan.Fault

namespace SketchLang.Scan

def Event.shown (event : Event) : String × String := (event.level.name, event.message)

def trace (token : Token) : String × String :=
  ("TRACE", "token " ++ token.kind.name ++ " " ++ Text.quoteString token.lexeme ++ " at " ++
    toString token.position.line ++ ":" ++ toString token.position.column)

variable {mode : LineMode} {source : String} {tokens : List Token} {rest : List Char} {c : Char}
  {pieces : List Piece}

theorem map_shown_token (tokens : List Token) :
    (tokens.map Event.token).map Event.shown = tokens.map trace := by
  rw [List.map_map]
  rfl

theorem shown_log_of_ok (h : tokenize mode source = .ok tokens) :
    (ofString mode source).log.map Event.shown =
      tokens.map trace ++ [("DEBUG", "scanned " ++ toString tokens.length ++ " tokens")] := by
  have haccepts : Accepts mode source := ⟨tokens, h⟩
  rw [accepts_iff] at haccepts
  rcases haccepts with ⟨pieces, hcuts⟩
  have hrun : Cuts (Cursor.ofString mode source).rest pieces [] := hcuts
  have hreport := run_start_of_cuts hrun
  have hresult : (ofString mode source).result = .ok tokens := h
  unfold ofString at hresult ⊢
  rw [hreport] at hresult ⊢
  injection hresult with htokens
  rw [← htokens]
  simp only [reportFrom, List.map_append, map_shown_token, List.append_assoc, List.length_append]
  rfl

theorem shown_log_of_cuts_cons (mode : LineMode) (h : Cuts source.toList pieces (c :: rest)) :
    let last := (start (.ofString mode source)).take pieces
    ∃ error, tokenize mode source = .error error ∧ step last.cursor = .error error ∧
      (ofString mode source).log.map Event.shown = last.tokens.toList.map trace ++
        [("DEBUG", "scan failed after " ++ toString last.tokens.size ++ " tokens: " ++
          error.message)] := by
  intro last
  have hrun : Cuts (Cursor.ofString mode source).rest pieces (c :: rest) := h
  have hreaches : Reaches (start (.ofString mode source)) last := reaches_take hrun
  have hrest : last.cursor.rest = c :: rest := rest_take hrun.text_eq
  have hne : last.cursor.rest ≠ [] := by simp [hrest]
  have hlog : last.log.toList = last.tokens.toList.map .token := hreaches.logsTokens rfl
  have hstep := step_of_halted hrest h.halted
  have hend := run_of_step_error hne hstep
  rw [← hreaches.run_eq] at hend
  refine ⟨_, ?_, hstep, ?_⟩
  . unfold tokenize ofString
    rw [hend]
    rfl
  . unfold ofString
    rw [hend]
    simp only [fail, Array.toList_push, hlog, List.map_append, map_shown_token]
    rfl

theorem tokenize_before_of_cuts (mode : LineMode) (h : Cuts source.toList pieces rest) :
    let last := (start (.ofString mode source)).take pieces
    tokenize mode (String.ofList (textOf pieces)) =
      .ok (last.tokens.toList ++ [.eof (.reached mode (textOf pieces))]) := by
  intro last
  have hrun : Cuts (Cursor.ofString mode source).rest pieces rest := h
  have hbefore : Cuts (String.ofList (textOf pieces)).toList pieces [] := by
    rw [String.toList_ofList]
    exact h.cuts_textOf
  have htokens : last.tokens.toList = [] ++ tokensFrom mode .start pieces :=
    tokens_take hrun.text_eq
  rw [tokenize_of_cuts_nil hbefore]
  rw [htokens, List.nil_append]
  rw [String.toList_ofList]

theorem shown_log_of_tokenize (mode : LineMode) (source : String) :
    (∀ tokens, tokenize mode source = .ok tokens →
      (∃ standing, tokens = standing ++ [.eof (.reached mode source.toList)]) ∧
      (ofString mode source).log.map Event.shown =
        tokens.map trace ++ [("DEBUG", "scanned " ++ toString tokens.length ++ " tokens")]) ∧
    ∀ error, tokenize mode source = .error error →
      ∃ before c rest last,
        (StopsAt mode source before c rest ∧ error.fault = .unrecognizedCharacter c ∨
          LeavesOpen mode source before c rest ∧ error.fault = .unterminatedString c) ∧
        Reaches (start (.ofString mode source)) last ∧ last.cursor.rest = c :: rest ∧
        step last.cursor = .error error ∧
        tokenize mode (String.ofList before) =
          .ok (last.tokens.toList ++ [.eof (.reached mode before)]) ∧
        (ofString mode source).log.map Event.shown = last.tokens.toList.map trace ++
          [("DEBUG", "scan failed after " ++ toString last.tokens.size ++ " tokens: " ++
            error.message)] := by
  constructor
  . intro tokens h
    exact ⟨⟨_, eq_emitted_of_tokenize h⟩, shown_log_of_ok h⟩
  . intro error h
    rcases exists_cuts source.toList with ⟨pieces, rest, hcuts⟩
    have hrun : Cuts (Cursor.ofString mode source).rest pieces rest := hcuts
    cases rest with
    | nil =>
      rw [tokenize_of_cuts_nil hcuts] at h
      contradiction
    | cons c rest =>
      rcases shown_log_of_cuts_cons mode hcuts with ⟨error', herror, hstep, hlog⟩
      rw [h] at herror
      injection herror with herror
      rw [← herror] at hstep hlog
      refine ⟨textOf pieces, c, rest, _, ?_, reaches_take hrun, rest_take hrun.text_eq, hstep,
        tokenize_before_of_cuts mode hcuts, hlog⟩
      cases (haltsAt_of_cuts mode hcuts).stopsAt_or_leavesOpen with
      | inl hstops =>
        rw [hstops.tokenize_eq] at h
        injection h with h
        rw [← h]
        exact .inl ⟨hstops, rfl⟩
      | inr hopen =>
        rw [hopen.tokenize_eq] at h
        injection h with h
        rw [← h]
        exact .inr ⟨hopen, rfl⟩

theorem shown_log_of_tokenize_half_operator :
    tokenize .flat "'\n'" = .ok [.plain .string "\n" ⟨1, 3⟩, .eof ⟨1, 3⟩] ∧
    (ofString .flat "'\n'").log.map Event.shown =
      [("TRACE", "token String \"\\n\" at 1:3"), ("TRACE", "token EOF \"\" at 1:3"),
        ("DEBUG", "scanned 2 tokens")] ∧
    tokenize .track "x=\n& &" = .error ⟨.unrecognizedCharacter '&', ⟨2, 1⟩⟩ ∧
    ∃ before rest last, StopsAt .track "x=\n& &" before '&' rest ∧
      Reaches (start (.ofString .track "x=\n& &")) last ∧ last.cursor.rest = '&' :: rest ∧
      tokenize .track (String.ofList before) =
        .ok (last.tokens.toList ++ [.eof (.reached .track before)]) ∧
      (ofString .track "x=\n& &").log.map Event.shown = last.tokens.toList.map trace ++
        [("DEBUG", "scan failed after " ++ toString last.tokens.size ++ " tokens: " ++
          "line 2, column 1: unrecognized character '&'")] := by
  have haccepted : tokenize .flat "'\n'" = .ok [.plain .string "\n" ⟨1, 3⟩, .eof ⟨1, 3⟩] := by
    with_unfolding_all rfl
  have hfault : tokenize .track "x=\n& &" = .error ⟨.unrecognizedCharacter '&', ⟨2, 1⟩⟩ := by
    with_unfolding_all rfl
  have hmessage : Error.message ⟨.unrecognizedCharacter '&', ⟨2, 1⟩⟩ =
      "line 2, column 1: unrecognized character '&'" := by
    decide +kernel
  refine ⟨haccepted, ?_, hfault, ?_⟩
  . rw [((shown_log_of_tokenize .flat "'\n'").1 _ haccepted).2]
    decide +kernel
  . rcases (shown_log_of_tokenize .track "x=\n& &").2 _ hfault with
      ⟨before, c, rest, last, hat, hreaches, hrest, -, hbefore, hlog⟩
    rw [hmessage] at hlog
    rcases hat with ⟨hstops, hc⟩ | ⟨-, hc⟩
    . injection hc with hc
      rw [← hc] at hstops hrest
      exact ⟨before, rest, last, hstops, hreaches, hrest, hbefore, hlog⟩
    . contradiction

end SketchLang.Scan
