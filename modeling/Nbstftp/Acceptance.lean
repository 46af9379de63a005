import Nbstftp.Language

/-!
# What is accepted

The code reads a string that a newline ends, a comment that the end of the file ends, and takes
a byte that is not ASCII for the end of the file, all of which the manual does not have; and it
does not read the booleans `1` and `0`, or a single-line comment that the end of the file ends.

A text can be read in one way, as to whether there are such forms: a reading of it tells whether
it is accepted (`Reading.accepts_iff`) and whether it is in the manual (`Reading.documented_iff`),
and what is accepted can be read (`exists_reading`). So the code is right about a text exactly if
it has no such forms, or forms of both kinds (`accepts_iff_documented_iff`).
-/

namespace Nbstftp

/-! ## Reading a text -/

/-- The last rule is the one for a slash that starts a comment the end of the file ends. -/
theorem selects_slash {body : Bytes} (hbody : ∀ b ∈ body, b ≠ 10) :
    Lib.Selects scanner.pattern (scanner.rules .INITIAL) ([47] ++ 47 :: body) .any [47] := by
  refine selects_any (by decide) fun r hr v hv hmem => ?_
  have hstarts := hmem.starts hr
  cases r with
  | opening =>
    obtain ⟨-, rfl⟩ := List.cons_eq_cons.1 (show 47 :: v = [47, 42] from hmem)
    exact absurd (List.cons_prefix_cons.1 hv).1 (by decide)
  | line =>
    -- The rule requires a newline, and there is none.
    obtain ⟨body', -, heq⟩ := hmem
    obtain ⟨-, rfl⟩ := List.cons_eq_cons.1 heq
    exact hbody 10 ((List.cons_prefix_cons.1 hv).2.subset (by simp)) rfl
  | _ => simp [Rule.Starts] at hstarts

theorem toNat_of_stop {b : UInt8} (hb : b = 0 ∨ 128 ≤ b) : b.toNat = 0 ∨ 128 ≤ b.toNat := by
  refine hb.imp (fun h => by rw [h]; rfl) fun h => ?_
  simpa [UInt8.le_iff_toNat_le] using h

theorem scannerAction_stop {b : UInt8} (hb : b = 0 ∨ 128 ≤ b) : scannerAction .any [b] = .eof := by
  refine if_neg fun ⟨hpos, hlt⟩ => ?_
  rcases hb with rfl | hb
  · exact absurd hpos (by decide)
  · exact absurd hb (UInt8.not_le.2 hlt)

/-- A byte that the parser takes for the end of the file. -/
theorem selects_stop {b : UInt8} (hb : b = 0 ∨ 128 ≤ b) (rest : Bytes) :
    Lib.Selects scanner.pattern (scanner.rules .INITIAL) ([b] ++ rest) .any [b] := by
  have hb' := toNat_of_stop hb
  refine selects_any ?_ fun r hr v _ hmem => ?_
  · rintro rfl
    simp at hb'
  · have hstarts := hmem.starts hr
    cases r <;> simp only [Rule.Starts] at hstarts <;> omega

/-- What is matched of a tail. -/
inductive TailMatches : Tail → List (Rule × Bytes) → Prop
  | nil : TailMatches .nil []
  | line (body : Bytes) (ms : List (Rule × Bytes)) : TailMatches (.line body) ((.any, [47]) :: ms)
  | comment (body : Bytes) (ms : List (Rule × Bytes)) (hms : ∀ m ∈ ms, m.1 = .inside) :
    TailMatches (.comment body) ((.opening, [47, 42]) :: ms)
  | stop (b : UInt8) (rest : Bytes) (hb : b = 0 ∨ 128 ≤ b) :
    TailMatches (.stop b rest) [(.any, [b])]

theorem tailMatches {tail : Tail} (h : tail.WellFormed) :
    TailMatches tail (scanner.lex .INITIAL tail.text) := by
  cases tail with
  | nil =>
    rw [Tail.text, lex_nil]
    exact .nil
  | line body =>
    have hlex := Lib.Lexer.lex_of_selects (selects_slash h)
    rw [Tail.text]
    exact hlex ▸ .line body _
  | comment body =>
    obtain ⟨ms, hms, hreads⟩ := reads_unclosed h
    rw [Tail.text, hreads.lex_eq, lex_nil, List.append_nil]
    exact .comment body ms hms
  | stop b rest =>
    have hlex := Lib.Lexer.lex_of_selects (selects_stop h rest)
    have hstops : scanner.stops .any [b] = true := decide_eq_true (scannerAction_stop h)
    rw [hstops, if_pos rfl] at hlex
    rw [Tail.text]
    exact hlex ▸ .stop b rest h

/-- Only for the slash of a comment there is a token. -/
theorem TailMatches.tokensOf_eq_nil {tail : Tail} {ms : List (Rule × Bytes)}
    (h : TailMatches tail ms) (hline : ∀ body, tail ≠ .line body) : tokensOf ms = [] := by
  cases h with
  | nil => rfl
  | line body _ => exact absurd rfl (hline body)
  | comment body ms hms => exact tokensOf_unclosed hms _
  | stop b rest hb => simp [tokensOf, scannerAction_stop hb, ScannerAction.token?]

theorem Tail.breaks {tail : Tail} (h : tail.WellFormed) : ∀ b ∈ tail.text.head?, Breaks b := by
  intro b hb
  cases tail with
  | nil => cases hb
  | line body =>
    cases hb
    exact ⟨by decide, by decide⟩
  | comment body =>
    cases hb
    exact ⟨by decide, by decide⟩
  | stop c rest =>
    cases hb
    have hb' := toNat_of_stop h
    refine ⟨by omega, eq_false_of_ne_true fun hdigit => ?_⟩
    have := (isdigit_iff b).1 hdigit
    omega

namespace Reading

variable {text : Bytes} (r : Reading text)

/-- The characters of a reading are those of a file. -/
theorem char_mem {b : UInt8} (hb : .char b ∈ r.pieces) : b ∈ ascii "\x7b\x7d=;" := by
  obtain ⟨-, hlt⟩ : 0 < b ∧ b < 128 := r.wellFormed _ hb
  have hmem : .char (Char.ofNat b.toNat) ∈ fileText r.entries := by
    rw [← r.meaning_eq]
    exact List.mem_filterMap.2 ⟨_, hb, rfl⟩
  have hchar {c : Char} {n : UInt8} (hn : c.toNat = n.toNat) (h : Char.ofNat b.toNat = c) :
      b = n := by
    have hb' : b.toNat < 128 := by simpa [UInt8.lt_iff_toNat_lt] using hlt
    have hvalid : b.toNat.isValidChar := .inl (by omega)
    have htoNat : (Char.ofNat b.toNat).toNat = b.toNat := by
      rw [Char.ofNat, dif_pos hvalid]
      rfl
    exact UInt8.toNat_inj.1 (by rw [← hn, ← h, htoNat])
  refine mem_chars_iff.2 ?_
  rcases char_of_mem_fileText hmem with h | h | h | h
  · exact .inl (hchar rfl h)
  · exact .inr (.inl (hchar rfl h))
  · exact .inr (.inr (.inl (hchar rfl h)))
  · exact .inr (.inr (.inr (hchar rfl h)))

/-- What is matched of a text that can be read. -/
theorem lex_eq : ∃ ms ms', scanner.lex .INITIAL text = ms ++ ms' ∧ MatchesOf r.pieces ms ∧
    TailMatches r.tail ms' := by
  obtain ⟨ms, hreads, hms⟩ := reads_pieces r.wellFormed (fun b => r.char_mem)
    (Tail.breaks r.tail_wellFormed) (r.meaning_eq ▸ spaced_fileText r.entries)
  rw [← r.text_eq] at hreads
  exact ⟨ms, _, hreads.lex_eq, hms, tailMatches r.tail_wellFormed⟩

/-- What can be read is accepted exactly if the scanner knows its forms. -/
theorem accepts_iff : Accepts text ↔ ¬r.Unknown := by
  obtain ⟨ms, ms', hlex, hms, htail⟩ := r.lex_eq
  have htokens : tokens .INITIAL text = r.pieces.filterMap Piece.token ++ tokensOf ms' := by
    rw [tokens, hlex, tokensOf_append, hms.tokens]
  rw [Nbstftp.accepts_iff, htokens]
  by_cases hline : ∃ body, r.tail = .line body
  · -- The slash of the comment is no character of a file.
    obtain ⟨body, hline⟩ := hline
    rw [hline] at htail
    refine iff_of_false ?_ fun h => h (.line body hline)
    rintro ⟨es, hes⟩
    cases htail with
    | line _ ms' =>
      have hslash : Token.char '/' ∈ fileText es := by
        rw [← hes]
        exact List.mem_append_right _ (List.mem_cons_self)
      exact absurd (char_of_mem_fileText hslash) (by decide)
  · rw [htail.tokensOf_eq_nil (not_exists.1 hline), List.append_nil]
    have hdigit : r.Unknown ↔ ∃ b, .digit b ∈ r.pieces := by
      constructor
      · rintro (⟨b, hb⟩ | ⟨body, hbody⟩)
        · exact ⟨b, hb⟩
        · exact absurd ⟨body, hbody⟩ hline
      · rintro ⟨b, hb⟩
        exact .digit b hb
    rw [hdigit, not_exists, ← filterMap_meaning_eq_iff]
    constructor
    · rintro ⟨es, hes⟩
      -- Both lists of tokens are read.
      obtain ⟨q, hrun⟩ := run_of_yyparse
        (yyparse_iff.2 ⟨r.entries, r.meaning_eq, (rfl : fileAction _ .fresh = _)⟩)
      obtain ⟨q', hrun'⟩ := run_of_yyparse
        (yyparse_iff.2 ⟨es, hes, (rfl : fileAction _ .fresh = _)⟩)
      exact eq_of_run (forall₂_swapped r.pieces) hrun hrun'
    · intro heq
      exact ⟨r.entries, by rw [← heq, r.meaning_eq]⟩

end Reading

/-! ## One way to read a text -/

/-- Matches of a form that is not in the manual. -/
inductive Departs (ms : List (Rule × Bytes)) : Prop
  | str (m : Rule × Bytes) (hm : m ∈ ms) (hstr : m.1 = .str) (h : 10 ∈ m.2)
  | comment (h : ms.countP (·.1 = .opening) ≠ ms.countP (·.1 = .closing))
  | eof (m : Rule × Bytes) (hm : m ∈ ms) (h : scannerAction m.1 m.2 = .eof)

/-- The matches in front of a comment that the end of the file ends. -/
def core (ms : List (Rule × Bytes)) : List (Rule × Bytes) := ms.takeWhile (· ≠ (.any, [47]))

/-- Of the matches of pieces, none ends the file, and only the strings depart. -/
theorem MatchesOf.departs_iff {pieces : List Piece} {ms : List (Rule × Bytes)}
    (h : MatchesOf pieces ms) : Departs ms ↔ ∃ body, .str body 10 ∈ pieces := by
  rw [← h.str]
  constructor
  · rintro (⟨m, hm, hstr, hnewline⟩ | hcomment | ⟨m, hm, heof⟩)
    · exact ⟨m, hm, hstr, hnewline⟩
    · exact absurd h.comments hcomment
    · obtain ⟨r, w⟩ := m
      cases r with
      | any =>
        obtain ⟨b, rfl, hb⟩ := h.any _ hm rfl
        rcases mem_chars_iff.1 hb with rfl | rfl | rfl | rfl <;> cases heof
      | _ => cases heof
  · rintro ⟨m, hm, hstr, hnewline⟩
    exact .str m hm hstr hnewline

/-- No match of pieces is the slash of a comment. -/
theorem MatchesOf.core_append {pieces : List Piece} {ms : List (Rule × Bytes)}
    (h : MatchesOf pieces ms) (ms' : List (Rule × Bytes)) : core (ms ++ ms') = ms ++ core ms' := by
  refine List.takeWhile_append_of_pos fun m hm => decide_eq_true ?_
  rintro rfl
  obtain ⟨b, hslash, hb⟩ := h.any _ hm rfl
  cases hslash
  exact absurd hb (by decide)

namespace Reading

variable {text : Bytes} (r : Reading text)

/-- Whether a text has a form that is not in the manual is known from its matches. -/
theorem undocumented_iff : r.Undocumented ↔ Departs (core (scanner.lex .INITIAL text)) := by
  obtain ⟨ms, ms', hlex, hms, htail⟩ := r.lex_eq
  rw [hlex, hms.core_append]
  have hplain (hcomment : ∀ body, r.tail ≠ .comment body)
      (hstop : ∀ b rest, r.tail ≠ .stop b rest) : r.Undocumented ↔ Departs ms := by
    rw [hms.departs_iff]
    constructor
    · rintro (⟨body, hbody⟩ | ⟨body, htail⟩ | ⟨b, rest, htail⟩)
      · exact ⟨body, hbody⟩
      · exact absurd htail (hcomment body)
      · exact absurd htail (hstop b rest)
    · exact fun ⟨body, hbody⟩ => .str body hbody
  generalize htail_eq : r.tail = tail at htail
  cases htail with
  | nil =>
    rw [core, List.takeWhile_nil, List.append_nil]
    exact hplain (by simp [htail_eq]) (by simp [htail_eq])
  | line body ms' =>
    rw [core, List.takeWhile_cons_of_neg (by simp), List.append_nil]
    exact hplain (by simp [htail_eq]) (by simp [htail_eq])
  | comment body ms' hms' =>
    -- A comment is opened and not closed.
    refine iff_of_true (.comment body htail_eq) (.comment ?_)
    have hcore : core ((.opening, [47, 42]) :: ms') = (.opening, [47, 42]) :: ms' := by
      refine List.takeWhile_eq_self_iff.2 fun m hm => decide_eq_true ?_
      rintro rfl
      rcases List.mem_cons.1 hm with hm | hm
      · cases hm
      · cases hms' _ hm
    simp [hcore, hms.comments, countP_inside hms']
  | stop b rest hb =>
    refine iff_of_true (.stop b rest htail_eq) (.eof (.any, [b]) ?_ (scannerAction_stop hb))
    have hslash : b ≠ 47 := by
      rintro rfl
      exact absurd hb (by decide)
    simp [core, hslash]

theorem documented_iff : Documented text ↔ ¬r.Undocumented := by
  constructor
  · rintro ⟨r', hr'⟩
    rwa [r.undocumented_iff, ← r'.undocumented_iff]
  · exact fun h => ⟨r, h⟩

end Reading

/-! ## What is accepted -/

/-- Any text is put together of pieces, which are what the scanner makes of it. -/
structure Split (text : Bytes) (pieces : List Piece) (tail : Tail) : Prop where
  wellFormed : ∀ p ∈ pieces, p.WellFormed
  digit : ∀ b, .digit b ∉ pieces
  tail_wellFormed : tail.WellFormed
  text_eq : text = pieces.flatMap Piece.text ++ tail.text
  tokens_eq : tokens .INITIAL text = pieces.filterMap Piece.token

/-- A piece in front of a text that is split. -/
theorem Split.cons {rest : Bytes} {pieces : List Piece} {tail : Tail} (h : Split rest pieces tail)
    {p : Piece} (hp : p.WellFormed) (hdigit : ∀ b, p ≠ .digit b)
    {ms : List (Rule × Bytes)} (hreads : scanner.Reads .INITIAL (p.text ++ rest) ms .INITIAL rest)
    (htokens : tokensOf ms = [p].filterMap Piece.token) :
    Split (p.text ++ rest) (p :: pieces) tail where
  wellFormed := by simpa using ⟨hp, h.wellFormed⟩
  digit b hb := (List.mem_cons.1 hb).elim (fun heq => hdigit b heq.symm) (h.digit b)
  tail_wellFormed := h.tail_wellFormed
  text_eq := by rw [List.flatMap_cons, List.append_assoc, ← h.text_eq]
  tokens_eq := by
    rw [tokens_of_reads hreads, htokens, h.tokens_eq, ← List.filterMap_append,
      List.singleton_append]

/-- A comment that is closed, in front of a text that is split. -/
theorem Split.comment {rest : Bytes} {pieces : List Piece} {tail : Tail}
    (h : Split rest pieces tail) {body : Bytes} (hfirst : FirstClose body) :
    Split ([47, 42] ++ (body ++ [42, 47] ++ rest)) (.comment body :: pieces) tail := by
  obtain ⟨ms, hms, hreads⟩ := reads_comment hfirst rest
  have hcons := h.cons (p := .comment body) hfirst (by simp)
    (by simpa [Piece.text] using hreads) (MatchesOf.comment body hms _ _).tokens
  simpa [Piece.text] using hcons

/-- A comment that is not. -/
theorem split_unclosed {body : Bytes} (h : ¬[42, 47] <:+: body) :
    Split ([47, 42] ++ body) [] (.comment body) where
  wellFormed := by simp
  digit := by simp
  tail_wellFormed := h
  text_eq := rfl
  tokens_eq := by
    obtain ⟨ms, hms, hreads⟩ := reads_unclosed h
    rw [tokens_of_reads hreads, tokensOf_unclosed hms, tokens, lex_nil]
    rfl

/-- A byte that the parser takes for the end of the file ends the pieces. -/
theorem split_stop {b : UInt8} (hb : b = 0 ∨ 128 ≤ b) (rest : Bytes) :
    Split ([b] ++ rest) [] (.stop b rest) where
  wellFormed := by simp
  digit := by simp
  tail_wellFormed := hb
  text_eq := rfl
  tokens_eq := by
    have hlex := Lib.Lexer.lex_of_selects (selects_stop hb rest)
    rw [show scanner.stops .any [b] = true from decide_eq_true (scannerAction_stop hb),
      if_pos rfl] at hlex
    rw [tokens, hlex]
    simp [tokensOf, scannerAction_stop hb, ScannerAction.token?]

/-- At the end of a text nothing matches, and only there. -/
theorem eq_nil_of_match? {text : Bytes} (h : scanner.match? .INITIAL text = none) : text = [] := by
  cases text with
  | nil => rfl
  | cons b rest =>
    have hnone := Lib.select_eq_none_iff.1 h [b] ⟨rest, rfl⟩ (by simp)
    by_cases hb : b = 10
    · subst hb
      exact absurd ((mem_pattern_iff .newline [10]).2 rfl) (hnone .newline (by decide))
    · exact absurd ((mem_pattern_iff .any [b]).2 ⟨b, hb, rfl⟩) (hnone .any (by decide))

/-- What a rule matches is a piece, if it starts no comment and does not end the file. -/
theorem exists_piece {r : Rule} {w : Bytes} (hr : r ∈ rules .INITIAL) (hmem : r.Lexeme w)
    (hopening : r ≠ .opening) (hgo : scannerAction r w ≠ .eof) :
    ∃ p : Piece, p.WellFormed ∧ (∀ b, p ≠ .digit b) ∧ p.text = w ∧
      tokensOf [(r, w)] = [p].filterMap Piece.token ∧ enter .INITIAL r = .INITIAL := by
  cases r with
  | word ws tok =>
    have hinitial : Rule.word ws tok ∈ initial :=
      (List.mem_append.1 hr).resolve_right (by simp)
    exact ⟨.word w tok, mem_spellings_iff.2 ⟨ws, hinitial, hmem⟩, by simp, rfl, rfl, rfl⟩
  | blank =>
    obtain ⟨b, hb, rfl⟩ := hmem
    exact ⟨.blank b, mem_blanks_iff.2 (.inl hb), by simp, rfl, rfl, rfl⟩
  | newline =>
    obtain rfl : w = [10] := hmem
    exact ⟨.blank 10, mem_blanks_iff.2 (.inr rfl), by simp, rfl, rfl, rfl⟩
  | cint => exact ⟨.int ⟨w, hmem.1, hmem.2⟩, trivial, by simp, rfl, rfl, rfl⟩
  | str =>
    obtain ⟨body, close, hbody, hclose, rfl⟩ := hmem
    refine ⟨.str body close, ⟨hbody, hclose⟩, by simp, rfl, ?_, rfl⟩
    simp [tokensOf, scannerAction, ScannerAction.token?, Piece.token, Piece.meaning]
  | opening => exact absurd rfl hopening
  | closing => exact absurd hr (by decide)
  | inside => exact absurd hr (by decide)
  | line =>
    obtain ⟨body, hbody, rfl⟩ := hmem
    exact ⟨.line body, hbody, by simp, rfl, rfl, rfl⟩
  | any =>
    obtain ⟨b, -, rfl⟩ := hmem
    have hb : 0 < b ∧ b < 128 := by
      by_contra h
      exact hgo (if_neg h)
    have haction : scannerAction .any [b] = .token (.char (Char.ofNat b.toNat)) := if_pos hb
    refine ⟨.char b, hb, by simp, rfl, ?_, rfl⟩
    simp [tokensOf, haction, ScannerAction.token?, Piece.token, Piece.meaning]

/-- Only a byte that the last rule matches ends the file. -/
theorem stop_of_eof {r : Rule} {w : Bytes} (hmem : r.Lexeme w) (h : scannerAction r w = .eof) :
    ∃ b, w = [b] ∧ (b = 0 ∨ 128 ≤ b) := by
  cases r with
  | any =>
    obtain ⟨b, -, rfl⟩ := hmem
    have hb : ¬(0 < b ∧ b < 128) := fun hb => by cases (if_pos hb).symm.trans h
    refine ⟨b, rfl, (not_and_or.1 hb).imp (fun h => UInt8.toNat_inj.1 ?_) UInt8.not_lt.1⟩
    simpa [UInt8.lt_iff_toNat_lt] using h
  | _ => cases h

/-- Of a text, the scanner reads one piece after the other, up to the tail. -/
theorem exists_split (text : Bytes) : ∃ pieces tail, Split text pieces tail := by
  -- A comment is read by several matches, so the induction is on the length.
  induction hlength : text.length using Nat.strong_induction_on generalizing text with
  | _ n ih =>
    cases hmatch : scanner.match? .INITIAL text with
    | none =>
      obtain rfl := eq_nil_of_match? hmatch
      exact ⟨[], .nil, by simp, by simp, trivial, rfl, by rw [tokens, lex_nil]; rfl⟩
    | some m =>
      obtain ⟨r, w⟩ := m
      have hselect := scanner.match?_eq_some_iff.1 hmatch
      obtain ⟨rest, rfl⟩ := hselect.isPrefix
      have hpos := List.length_pos_of_ne_nil hselect.nonempty
      have hmem := (mem_pattern_iff r w).1 hselect.mem
      have hrest {rest' : Bytes} (hlt : rest'.length ≤ rest.length) :
          ∃ pieces tail, Split rest' pieces tail :=
        ih rest'.length (by rw [← hlength, List.length_append]; omega) rest' rfl
      by_cases heof : scannerAction r w = .eof
      · obtain ⟨b, rfl, hb⟩ := stop_of_eof hmem heof
        exact ⟨[], _, split_stop hb rest⟩
      by_cases hopening : r = .opening
      · subst hopening
        obtain rfl : w = [47, 42] := hmem
        rcases exists_firstClose rest with ⟨body, rest', hfirst, rfl⟩ | hnone
        · -- What follows the comment is shorter.
          obtain ⟨pieces, tail, hsplit⟩ := @hrest rest' (by simp; omega)
          exact ⟨_, tail, hsplit.comment hfirst⟩
        · exact ⟨[], _, split_unclosed hnone⟩
      · obtain ⟨p, hp, hdigit, rfl, htokens, henter⟩ :=
          exists_piece hselect.mem_rules hmem hopening heof
        obtain ⟨pieces, tail, hsplit⟩ := hrest le_rfl
        have hreads := Lib.Lexer.Reads.single hselect (decide_eq_false heof)
        rw [show scanner.enter .INITIAL r = .INITIAL from henter] at hreads
        exact ⟨_, tail, hsplit.cons hp hdigit hreads htokens⟩

/-- What is accepted can be read. -/
theorem exists_reading {text : Bytes} (h : Accepts text) : Nonempty (Reading text) := by
  obtain ⟨es, hes⟩ := accepts_iff.1 h
  obtain ⟨pieces, tail, hsplit⟩ := exists_split text
  have hmeaning : pieces.filterMap Piece.meaning = fileText es := by
    rw [filterMap_meaning_eq_iff.2 hsplit.digit, ← hsplit.tokens_eq, hes]
  exact ⟨pieces, tail, es, hsplit.wellFormed, hsplit.tail_wellFormed, hmeaning, hsplit.text_eq⟩

/-- The code accepts the language of the manual, as far as a text is concerned, exactly if, when
    it can be read in any of the forms, it has forms that are not in the manual if and only if it
    has forms that the scanner does not know. -/
theorem accepts_iff_documented_iff (text : Bytes) : (Accepts text ↔ Documented text) ↔
    ∀ r : Reading text, (r.Unknown ↔ r.Undocumented) := by
  constructor
  · intro h r
    rw [r.accepts_iff, r.documented_iff] at h
    exact not_iff_not.1 h
  · intro h
    constructor
    · intro haccepts
      obtain ⟨r⟩ := exists_reading haccepts
      exact r.documented_iff.2 (mt (h r).2 (r.accepts_iff.1 haccepts))
    · rintro ⟨r, hr⟩
      exact r.accepts_iff.2 (mt (h r).1 hr)

/-- A file with a boolean that is written as a digit. -/
def Sample.digitReading : Reading (ascii "server\x7bdaemonize=1;\x7d") where
  pieces := [.word (ascii "server") .SERVER, .char 123, .word (ascii "daemonize") .DAEMONIZE,
    .char 61, .digit true, .char 59, .char 125]
  tail := .nil
  entries := [⟨.server, [.daemonize true], by decide⟩]
  wellFormed := by simp [Piece.WellFormed, Token.spellings]
  tail_wellFormed := trivial
  meaning_eq := by decide
  text_eq := by decide

theorem not_accepts_iff_documented : ¬∀ text, Accepts text ↔ Documented text := by
  intro h
  have hdocumented : ¬Sample.digitReading.Undocumented := by
    rintro (⟨body, hbody⟩ | ⟨body, htail⟩ | ⟨b, rest, htail⟩)
    · simp [Sample.digitReading] at hbody
    · cases htail
    · cases htail
  have haccepts := (h _).2 (Sample.digitReading.documented_iff.2 hdocumented)
  exact Sample.digitReading.accepts_iff.1 haccepts (.digit true (by simp [Sample.digitReading]))

end Nbstftp
