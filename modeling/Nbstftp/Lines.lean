import Nbstftp.Comments

/-!
# Lines

The scanner counts lines (`lineno`), for the messages of `yyerror` and of an unterminated comment:
a newline and a single-line comment are one each, and so is a piece of a comment, whatever
newlines there are in it; the newline that ends a string is none. So the count is right at a token
exactly if the pieces of comments in front of it are as many as the newlines in comments and
strings (`tracksLines_iff`).
-/

namespace Nbstftp

/-- The counters of the scanner. -/
structure Lines where
  lineno : ℕ
  commentstart : ℕ

namespace Lines

/-- The actions, as to the counters. -/
def act (s : Lines) (m : Rule × Bytes) : Lines :=
  match m.1 with
  | .newline | .inside | .line => { s with lineno := s.lineno + 1 }
  | .opening => { s with commentstart := s.lineno }
  | .word _ _ | .blank | .cint | .str | .closing | .any => s

/-- The counters after some matches. -/
def after (s : Lines) (ms : List (Rule × Bytes)) : Lines := ms.foldl act s

/-- What is printed at the end of the file. -/
def eofStdout (s : Lines) : StartCondition → Bytes
  | .INITIAL => []
  | .COMMENT => ascii "line " ++ decimal (s.commentstart + 1) ++ ascii ": Unterminated comment\n"

/-- What `yyerror` prints. -/
def yyerror (s : Lines) (message : Bytes) : Bytes :=
  ascii "Config: Error parsing line " ++ decimal (s.lineno + 1) ++ ascii ": " ++ message ++
    ascii "\n"

end Lines

/-- At every token of a file, the count is that of the newlines in front of it. It starts at what
    the file read before has left, as nothing resets it. -/
def TracksLines (start : Lines) (text : Bytes) : Prop :=
  ∀ past m rest tok, scanner.lex .INITIAL text = past ++ m :: rest →
    scannerAction m.1 m.2 = .token tok →
      (start.after (past ++ [m])).lineno =
        (text.take (past.flatMap Prod.snd).length).count 10

/-- Then `yyerror` names the line of a token. -/
theorem yyerror_of_tracksLines {start : Lines} {text : Bytes} (h : TracksLines start text)
    {past rest : List (Rule × Bytes)} {m : Rule × Bytes} {tok : Token}
    (hlex : scanner.lex .INITIAL text = past ++ m :: rest)
    (htok : scannerAction m.1 m.2 = .token tok) (message : Bytes) :
    (start.after (past ++ [m])).yyerror message =
      ascii "Config: Error parsing line " ++
        decimal ((text.take (past.flatMap Prod.snd).length).count 10 + 1) ++
        ascii ": " ++ message ++ ascii "\n" := by
  rw [Lines.yyerror, h past m rest tok hlex htok]

/-- The pieces of comments among some matches. -/
def pieces (ms : List (Rule × Bytes)) : ℕ := ms.countP (·.1 = .inside)

/-- The newlines in comments and in strings. -/
def unseen (ms : List (Rule × Bytes)) : ℕ :=
  ((ms.filter fun m => m.1 = .inside ∨ m.1 = .str).flatMap Prod.snd).count 10

/-! ## The count -/

/-- A match is of the form of its rule, and that of a word has no newline. -/
theorem lexeme_of_mem_lex {m : StartCondition} {text : Bytes} {x : Rule × Bytes}
    (h : x ∈ scanner.lex m text) :
    x.1.Lexeme x.2 ∧ ∀ ws tok, x.1 = .word ws tok → 10 ∉ x.2 := by
  obtain ⟨m', hrule, hmem⟩ := Lib.Lexer.exists_of_mem_lex h
  have hlexeme := (mem_pattern_iff x.1 x.2).1 hmem
  refine ⟨hlexeme, fun ws tok hword hnewline => ?_⟩
  rw [hword] at hrule hlexeme
  cases m' with
  | INITIAL =>
    rcases List.mem_append.1 hrule with hinitial | hany
    · exact absurd (letters_of_word hinitial hlexeme 10 hnewline) (by decide)
    · cases List.mem_singleton.1 hany
  | COMMENT => simp [scanner, rules] at hrule

/-- What is no string and no piece of a comment is counted by its newlines. -/
theorem act_lineno {m : Rule × Bytes} (hmem : m.1.Lexeme m.2)
    (hword : ∀ ws tok, m.1 = .word ws tok → 10 ∉ m.2) (hm : ¬(m.1 = .inside ∨ m.1 = .str))
    (s : Lines) : (s.act m).lineno = s.lineno + m.2.count 10 := by
  obtain ⟨r, w⟩ := m
  have hzero {w : Bytes} (h : 10 ∉ w) : w.count 10 = 0 := List.count_eq_zero.2 h
  cases r with
  | word ws tok =>
    rw [hzero (hword ws tok rfl)]
    rfl
  | blank =>
    obtain ⟨b, rfl | rfl, rfl⟩ := hmem <;> rfl
  | newline =>
    cases hmem
    rfl
  | cint =>
    rw [hzero fun h => absurd (hmem.2 10 h) (by decide)]
    rfl
  | str => exact absurd (.inr rfl) hm
  | opening =>
    cases hmem
    rfl
  | closing =>
    cases hmem
    rfl
  | inside => exact absurd (.inl rfl) hm
  | line =>
    obtain ⟨body, hbody, rfl⟩ := hmem
    have hnone := hzero fun h => hbody 10 h rfl
    simp [Lines.act, hnone]
  | any =>
    obtain ⟨b, hb, rfl⟩ := hmem
    simp [Lines.act, hb]

/-- The count, but for what is not seen and what is counted by pieces, is that of the newlines. -/
theorem after_lineno {ms : List (Rule × Bytes)} (hms : ∀ m ∈ ms, m.1.Lexeme m.2 ∧
      ∀ ws tok, m.1 = .word ws tok → 10 ∉ m.2) (s : Lines) :
    (s.after ms).lineno + unseen ms =
      s.lineno + pieces ms + (ms.flatMap Prod.snd).count 10 := by
  induction ms generalizing s with
  | nil => rfl
  | cons m ms ih =>
    have hrest := ih (fun m hm => hms m (List.mem_cons_of_mem _ hm)) (s.act m)
    obtain ⟨hmem, hword⟩ := hms m List.mem_cons_self
    rw [Lines.after, List.foldl_cons, ← Lines.after, List.flatMap_cons, List.count_append]
    by_cases hm : m.1 = .inside ∨ m.1 = .str
    · have hunseen : unseen (m :: ms) = m.2.count 10 + unseen ms := by
        simp [unseen, hm]
      rw [hunseen]
      -- A piece of a comment counts as one newline, and a string as none.
      rcases hm with hm | hm
      · have hact : (s.act m).lineno = s.lineno + 1 := by simp [Lines.act, hm]
        have hpieces : pieces (m :: ms) = pieces ms + 1 := by simp [pieces, hm]
        omega
      · have hact : (s.act m).lineno = s.lineno := by simp [Lines.act, hm]
        have hpieces : pieces (m :: ms) = pieces ms := by simp [pieces, hm]
        omega
    · have hact := act_lineno hmem hword hm s
      have hunseen : unseen (m :: ms) = unseen ms := by simp [unseen, hm]
      have hpieces : pieces (m :: ms) = pieces ms := by
        simp [pieces, not_or.1 hm]
      omega

/-- A token is not counted. -/
theorem act_lineno_of_token {m : Rule × Bytes} {tok : Token}
    (h : scannerAction m.1 m.2 = .token tok) (s : Lines) : (s.act m).lineno = s.lineno := by
  obtain ⟨r, w⟩ := m
  cases r <;> first | rfl | cases h

/-- At the end of the file, the message is about the line in which the comment starts. -/
theorem eofStdout_unclosed (start : Lines) (past : List (Rule × Bytes)) (w : Bytes)
    {ms : List (Rule × Bytes)} (hms : ∀ m ∈ ms, m.1 = .inside) :
    (start.after (past ++ (.opening, w) :: ms)).eofStdout .COMMENT =
      ascii "line " ++ decimal ((start.after past).lineno + 1) ++
        ascii ": Unterminated comment\n" := by
  have hkept (s : Lines) : (s.after ms).commentstart = s.commentstart := by
    induction ms generalizing s with
    | nil => rfl
    | cons m ms ih =>
      rw [Lines.after, List.foldl_cons, ← Lines.after,
        ih fun m hm => hms m (List.mem_cons_of_mem _ hm)]
      simp [Lines.act, hms m List.mem_cons_self]
  have hafter : start.after (past ++ (.opening, w) :: ms) =
      ((start.after past).act (.opening, w)).after ms := by
    rw [Lines.after, List.foldl_append, List.foldl_cons]
    rfl
  rw [hafter, Lines.eofStdout, hkept]
  rfl

/-- The lines are tracked exactly if, at every token, the count at the start and the pieces of
    comments in front of the token are as many as the newlines in these and at the ends of
    strings. -/
theorem tracksLines_iff (start : Lines) (text : Bytes) : TracksLines start text ↔
    ∀ past m rest tok, scanner.lex .INITIAL text = past ++ m :: rest →
      scannerAction m.1 m.2 = .token tok → start.lineno + pieces past = unseen past := by
  refine forall₄_congr fun past m rest tok => forall₂_congr fun hlex htok => ?_
  have hpast : ∀ m ∈ past, m.1.Lexeme m.2 ∧ ∀ ws tok, m.1 = .word ws tok → 10 ∉ m.2 :=
    fun m hm => lexeme_of_mem_lex (hlex ▸ List.mem_append_left _ hm)
  have hcount := after_lineno hpast start
  have htext : past.flatMap Prod.snd <+: text := by
    refine List.IsPrefix.trans ?_ (scanner.lex_isPrefix .INITIAL text)
    rw [hlex, List.flatMap_append]
    exact List.prefix_append _ _
  have hafter : (start.after (past ++ [m])).lineno = (start.after past).lineno := by
    rw [Lines.after, List.foldl_concat, ← Lines.after, act_lineno_of_token htok]
  rw [hafter, ← List.prefix_iff_eq_take.1 htext]
  omega

/-- A comment in front of the first block. -/
theorem not_tracksLines : ¬∀ text, TracksLines ⟨0, 0⟩ text := by
  intro h
  have hword : Lib.Selects scanner.pattern (scanner.rules .INITIAL)
      (ascii "server" ++ ascii "{}") (.word [ascii "server"] .SERVER) (ascii "server") :=
    selects_word (by decide) (List.mem_singleton_self _) fun b hb => by cases hb; decide
  have hcomment : scanner.Reads .INITIAL ([47, 42] ++ ([120] ++ ([42, 47] ++ ascii "server{}")))
      [(.opening, [47, 42]), (.inside, [120]), (.closing, [42, 47])] .INITIAL
      (ascii "server{}") :=
    .cons selects_opening rfl (.cons (selects_run (by simp) (by simp) (by simp)) rfl
      (.single (selects_closing _) rfl))
  have hlex := hcomment.lex_eq
  rw [show ascii "server{}" = ascii "server" ++ ascii "{}" from by decide,
    Lib.Lexer.lex_of_selects hword] at hlex
  exact absurd (h _ _ _ _ _ hlex rfl) (by decide)

end Nbstftp
