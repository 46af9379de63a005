import Nbstftp.Scanner

/-!
# Comments

A comment is read in the start condition `COMMENT`, in runs without a star and single stars, and
ends at the first `*/` behind its opening, or else at the end of the file (`skipsComment`).
-/

namespace Nbstftp

/-- What stands in front of the first `*/`. -/
def FirstClose (body : Bytes) : Prop := ¬ascii "*/" <:+: body ++ ascii "*"

theorem firstClose_iff {body : Bytes} : FirstClose body ↔ ¬[42, 47] <:+: body ++ [42] := by
  rw [FirstClose, show ascii "*/" = [42, 47] from by decide, show ascii "*" = [42] from by decide]

/-- A text has a first `*/`, or none. -/
theorem exists_firstClose (text : Bytes) :
    (∃ body rest, FirstClose body ∧ text = body ++ [42, 47] ++ rest) ∨ ¬[42, 47] <:+: text := by
  induction text with
  | nil => exact .inr (by decide)
  | cons b text ih =>
    by_cases hclose : [42, 47] <+: b :: text
    · obtain ⟨rest, hrest⟩ := hclose
      exact .inl ⟨[], rest, firstClose_iff.2 (by decide), hrest.symm⟩
    · rcases ih with ⟨body, rest, hfirst, rfl⟩ | hnone
      · refine .inl ⟨b :: body, rest, ?_, rfl⟩
        rw [firstClose_iff] at hfirst ⊢
        intro hin
        rcases List.infix_cons_iff.1 hin with hpre | hin
        · refine hclose (hpre.trans ?_)
          exact ⟨47 :: rest, by simp⟩
        · exact hfirst hin
      · exact .inr fun hin => (List.infix_cons_iff.1 hin).elim hclose hnone

/-- What stands in front of a star, or of the end of the file, without a `*/`, is read in the
    comment. -/
theorem reads_body {rest : Bytes} (hrest : ∀ b ∈ rest.head?, b = 42) (body : Bytes)
    (h : ¬[42, 47] <:+: body ++ rest.take 1) : ∃ ms : List (Rule × Bytes),
      (∀ m ∈ ms, m.1 = .inside) ∧ scanner.Reads .COMMENT (body ++ rest) ms .COMMENT rest := by
  induction hlength : body.length using Nat.strong_induction_on generalizing body with
  | _ n ih =>
    -- Of what is read, a piece is read first.
    have hpiece (run : Bytes) {body' : Bytes} (hbody : body = run ++ body') (hne : run ≠ [])
        (hselect : Lib.Selects scanner.pattern (scanner.rules .COMMENT)
          (run ++ (body' ++ rest)) .inside run) : ∃ ms : List (Rule × Bytes),
          (∀ m ∈ ms, m.1 = .inside) ∧ scanner.Reads .COMMENT (body ++ rest) ms .COMMENT rest := by
      have hpos := List.length_pos_of_ne_nil hne
      have hsuffix : body' ++ rest.take 1 <:+: body ++ rest.take 1 := by
        rw [hbody, List.append_assoc]
        exact (List.suffix_append run _).isInfix
      obtain ⟨ms, hms, hreads⟩ := ih body'.length
        (by rw [← hlength, hbody, List.length_append]; omega) body'
        (fun hin => h (hin.trans hsuffix)) rfl
      refine ⟨(.inside, run) :: ms, by simpa using hms, ?_⟩
      rw [hbody, List.append_assoc]
      exact .cons hselect rfl hreads
    cases body with
    | nil => exact ⟨[], by simp, .nil _ _⟩
    | cons b body =>
      by_cases hb : b = 42
      · -- A star, with no slash behind it.
        subst hb
        refine hpiece [42] rfl (by simp) (selects_star fun hhead => ?_)
        cases body with
        | nil => exact absurd (hrest 47 hhead) (by decide)
        | cons c body =>
          cases hhead
          exact h ⟨[], body ++ rest.take 1, rfl⟩
      · -- A run up to the next star, which is in the body or starts the rest.
        refine hpiece _ (List.takeWhile_append_dropWhile (p := (· != 42))).symm (by simp [hb])
          (selects_run (by simp [hb]) (fun c hc => by simpa using List.mem_takeWhile_imp hc) ?_)
        intro c hc
        cases hdrop : (b :: body).dropWhile (· != 42) with
        | nil => exact hrest c (by simpa [hdrop] using hc)
        | cons d body' =>
          have hd := List.head_dropWhile_not (· != 42) (l := b :: body) (by simp [hdrop])
          simp only [hdrop, List.head_cons] at hd
          rw [hdrop] at hc
          cases hc
          simpa using hd

/-- A comment that is closed. -/
theorem reads_comment {body : Bytes} (h : FirstClose body) (rest : Bytes) :
    ∃ ms : List (Rule × Bytes), (∀ m ∈ ms, m.1 = .inside) ∧
      scanner.Reads .INITIAL ([47, 42] ++ (body ++ [42, 47] ++ rest))
        ((.opening, [47, 42]) :: (ms ++ [(.closing, [42, 47])])) .INITIAL rest := by
  obtain ⟨ms, hms, hreads⟩ := @reads_body ([42, 47] ++ rest) (by simp) body
    (by simpa using firstClose_iff.1 h)
  rw [← List.append_assoc] at hreads
  exact ⟨ms, hms, .cons selects_opening rfl
    (hreads.append (.single (selects_closing rest) rfl))⟩

/-- A comment that is not. -/
theorem reads_unclosed {text : Bytes} (h : ¬[42, 47] <:+: text) :
    ∃ ms : List (Rule × Bytes), (∀ m ∈ ms, m.1 = .inside) ∧
      scanner.Reads .INITIAL ([47, 42] ++ text) ((.opening, [47, 42]) :: ms) .COMMENT [] := by
  obtain ⟨ms, hms, hreads⟩ := @reads_body [] (by simp) text (by simpa using h)
  rw [List.append_nil] at hreads
  exact ⟨ms, hms, .cons selects_opening rfl hreads⟩

/-- A comment makes no tokens. -/
theorem tokensOf_inside {ms : List (Rule × Bytes)} (h : ∀ m ∈ ms, m.1 = .inside) :
    tokensOf ms = [] := by
  refine List.filterMap_eq_nil_iff.2 fun m hm => ?_
  rw [h m hm]
  rfl

theorem tokensOf_append (ms ms' : List (Rule × Bytes)) :
    tokensOf (ms ++ ms') = tokensOf ms ++ tokensOf ms' := List.filterMap_append

theorem tokensOf_unclosed {ms : List (Rule × Bytes)} (h : ∀ m ∈ ms, m.1 = .inside) (w : Bytes) :
    tokensOf ((.opening, w) :: ms) = [] := by
  rw [← List.singleton_append, tokensOf_append, tokensOf_inside h]
  rfl

theorem tokensOf_comment {ms : List (Rule × Bytes)} (h : ∀ m ∈ ms, m.1 = .inside)
    (w w' : Bytes) : tokensOf ((.opening, w) :: (ms ++ [(.closing, w')])) = [] := by
  rw [← List.cons_append, tokensOf_append, tokensOf_unclosed h]
  rfl

/-- No match in a comment is of another rule. -/
theorem countP_inside {ms : List (Rule × Bytes)} (h : ∀ m ∈ ms, m.1 = .inside) {r : Rule}
    (hr : r ≠ .inside) : ms.countP (·.1 = r) = 0 := by
  refine List.countP_eq_zero.2 fun m hm => ?_
  simpa [h m hm] using hr.symm

/-- The tokens of a text that is read up to the rest. -/
theorem tokens_of_reads {m m' : StartCondition} {text text' : Bytes} {ms : List (Rule × Bytes)}
    (h : scanner.Reads m text ms m' text') : tokens m text = tokensOf ms ++ tokens m' text' := by
  rw [tokens, h.lex_eq, tokensOf_append, tokens]

/-- At the end of the file nothing matches, and `yylex` returns 0. -/
theorem lex_nil (m : StartCondition) : scanner.lex m [] = [] := by
  refine scanner.lex_of_match?_eq_none (Lib.select_eq_none_iff.2 fun v hv hne => ?_)
  exact absurd (List.prefix_nil.1 hv) hne

/-- Whatever follows an opening `/*`: the pieces of the comment are read, up to and including the
    first `*/`, without a token, and what comes after it is read as if there were no comment; or
    they are read up to the end of the file, where no token is left. -/
structure SkipsComment (text : Bytes) : Prop where
  closed : ∀ body rest, FirstClose body → text = body ++ ascii "*/" ++ rest →
    (∃ ms : List (Rule × Bytes), (∀ m ∈ ms, m.1 = .inside) ∧
      scanner.Reads .INITIAL (ascii "/*" ++ text)
        ((.opening, ascii "/*") :: (ms ++ [(.closing, ascii "*/")])) .INITIAL rest) ∧
    tokens .INITIAL (ascii "/*" ++ text) = tokens .INITIAL rest
  unclosed : ¬ascii "*/" <:+: text →
    (∃ ms : List (Rule × Bytes), (∀ m ∈ ms, m.1 = .inside) ∧
      scanner.Reads .INITIAL (ascii "/*" ++ text) ((.opening, ascii "/*") :: ms) .COMMENT []) ∧
    tokens .INITIAL (ascii "/*" ++ text) = []

theorem skipsComment (text : Bytes) : SkipsComment text := by
  have hopening : ascii "/*" = [47, 42] := by decide
  have hclosing : ascii "*/" = [42, 47] := by decide
  constructor
  · rintro body rest hfirst rfl
    obtain ⟨ms, hms, hreads⟩ := reads_comment hfirst rest
    rw [hopening, hclosing]
    refine ⟨⟨ms, hms, hreads⟩, ?_⟩
    rw [tokens_of_reads hreads, tokensOf_comment hms, List.nil_append]
  · intro hnone
    rw [hclosing] at hnone
    obtain ⟨ms, hms, hreads⟩ := reads_unclosed hnone
    rw [hopening]
    refine ⟨⟨ms, hms, hreads⟩, ?_⟩
    rw [tokens_of_reads hreads, tokensOf_unclosed hms, List.nil_append, tokens, lex_nil]
    rfl

end Nbstftp
