import Nbstftp.Comments
import Mathlib.Data.List.Chain

/-!
# The configuration language

The language of the manual: a text is put together of pieces (`Piece`), which are white space,
comments, words, numbers, strings and single characters, and their meanings are the tokens of
blocks (`Documented`).

Other forms are part of a reading too (`Reading`), as the code knows them though the manual does
not (`Reading.Undocumented`), or the manual though the scanner does not (`Reading.Unknown`).

In the text of blocks, a word or a number is followed by white space, a comment or a character
(`spaced_fileText`), so that the scanner reads a text piece by piece (`reads_pieces`).
-/

namespace Nbstftp

/-! ## The manual -/

/-- How a word is written. -/
def Token.spellings : Token → List Bytes
  | .BOOL true => [ascii "true", ascii "yes"]
  | .BOOL false => [ascii "false", ascii "no"]
  | .SERVER => [ascii "server"]
  | .LISTEN => [ascii "listen"]
  | .MODULE => [ascii "module"]
  | .BIND => [ascii "bind"]
  | .PORT => [ascii "port"]
  | .DIRECTORY => [ascii "directory"]
  | .USER => [ascii "user"]
  | .GROUP => [ascii "group"]
  | .PIDFILE => [ascii "pidfile"]
  | .DAEMONIZE => [ascii "daemonize"]
  | .READTIMEOUT => [ascii "readtimeout"]
  | .FIXPATH => [ascii "fixpath"]
  | .NAME => [ascii "name"]
  | .PATH => [ascii "path"]
  | .MODSEARCHPATH => [ascii "modulesearchpath"]
  | .CINT _ | .STR _ | .char _ => []

/-- A piece of a text. -/
inductive Piece
  | blank (b : UInt8)
  | line (body : Bytes)
  | comment (body : Bytes)
  | word (w : Bytes) (tok : Token)
  | int (s : Literal)
  /-- A boolean that is written as a digit. -/
  | digit (b : Bool)
  /-- A string, with the byte that ends it. -/
  | str (body : Bytes) (close : UInt8)
  | char (b : UInt8)

namespace Piece

def text : Piece → Bytes
  | .blank b | .char b => [b]
  | .line body => 47 :: 47 :: (body ++ [10])
  | .comment body => [47, 42] ++ (body ++ [42, 47])
  | .word w _ => w
  | .int s => s.digits
  | .digit b => if b then ascii "1" else ascii "0"
  | .str body close => 34 :: (body ++ [close])

/-- The pieces there are, with the strings that a newline ends. -/
def WellFormed : Piece → Prop
  | .blank b => b ∈ ascii " \t\n"
  | .line body => ∀ b ∈ body, b ≠ 10
  | .comment body => FirstClose body
  | .word w tok => w ∈ tok.spellings
  | .int _ | .digit _ => True
  | .str body close => (∀ b ∈ body, b ≠ 34 ∧ b ≠ 10) ∧ (close = 34 ∨ close = 10)
  | .char b => 0 < b ∧ b < 128

/-- The token a piece stands for. -/
def meaning : Piece → Option Token
  | .blank _ | .line _ | .comment _ => none
  | .word _ tok => some tok
  | .int s => some (.CINT (atoi s.digits))
  | .digit b => some (.BOOL b)
  | .str body _ => some (.STR (body.takeWhile (· != 0)))
  | .char b => some (.char (Char.ofNat b.toNat))

/-- The token the scanner makes of it, which does not know of booleans. -/
def token : Piece → Option Token
  | .digit b => some (.CINT (if b then 1 else 0))
  | p => p.meaning

end Piece

/-- What comes after the pieces of a text: nothing, a comment that the end of the file ends, or a
    byte that the parser takes for the end of the file. -/
inductive Tail
  | nil
  | line (body : Bytes)
  | comment (body : Bytes)
  | stop (b : UInt8) (rest : Bytes)

namespace Tail

def text : Tail → Bytes
  | .nil => []
  | .line body => 47 :: 47 :: body
  | .comment body => [47, 42] ++ body
  | .stop b rest => b :: rest

def WellFormed : Tail → Prop
  | .nil => True
  | .line body => ∀ b ∈ body, b ≠ 10
  | .comment body => ¬[42, 47] <:+: body
  | .stop b _ => b = 0 ∨ 128 ≤ b

end Tail

/-- A text as the blocks of a file, in any of the forms. -/
structure Reading (text : Bytes) where
  pieces : List Piece
  tail : Tail
  entries : List Entry
  wellFormed : ∀ p ∈ pieces, p.WellFormed
  tail_wellFormed : tail.WellFormed
  meaning_eq : pieces.filterMap Piece.meaning = fileText entries
  text_eq : text = pieces.flatMap Piece.text ++ tail.text

namespace Reading

variable {text : Bytes} (r : Reading text)

/-- Of the forms that are not in the manual, there is one. -/
inductive Undocumented : Prop
  | str (body : Bytes) (h : .str body 10 ∈ r.pieces)
  | comment (body : Bytes) (h : r.tail = .comment body)
  | stop (b : UInt8) (rest : Bytes) (h : r.tail = .stop b rest)

/-- Of the forms of the manual that the scanner does not know, there is one. -/
inductive Unknown : Prop
  | digit (b : Bool) (h : .digit b ∈ r.pieces)
  | line (body : Bytes) (h : r.tail = .line body)

end Reading

/-- The language of the manual. -/
def Documented (text : Bytes) : Prop := ∃ r : Reading text, ¬r.Undocumented

/-- What scanner and parser accept. -/
def Accepts (text : Bytes) : Prop := ∃ g, yyparse (tokens .INITIAL text) .fresh = .ok g

theorem accepts_iff {text : Bytes} : Accepts text ↔ ∃ es, tokens .INITIAL text = fileText es := by
  simp only [Accepts, yyparse_iff]
  exact ⟨fun ⟨_, es, hes, _⟩ => ⟨es, hes⟩, fun ⟨es, hes⟩ => ⟨_, es, hes, rfl⟩⟩

theorem mem_spellings_iff {tok : Token} {w : Bytes} :
    w ∈ tok.spellings ↔ ∃ ws, Rule.word ws tok ∈ initial ∧ w ∈ ws := by
  constructor
  · intro h
    refine ⟨tok.spellings, ?_, h⟩
    cases tok with
    | BOOL b => cases b <;> decide
    | CINT _ => cases h
    | STR _ => cases h
    | char _ => cases h
    | _ => decide
  · rintro ⟨ws, hr, hw⟩
    have hall : ∀ r ∈ initial, (match r with
        | .word ws tok => ws.all fun w => w ∈ tok.spellings
        | _ => true) = true := by
      decide
    have hws := hall _ hr
    simp only [List.all_eq_true, decide_eq_true_eq] at hws
    exact hws w hw

/-! ## Tokens of a file -/

def Token.IsChar : Token → Prop
  | .char _ => True
  | _ => False

/-- Of two tokens in a row, one is a character. -/
def Spaced (toks : List Token) : Prop := toks.IsChain fun a b => a.IsChar ∨ b.IsChar

/-- Tokens are put together at a character. -/
theorem Spaced.append {toks toks' : List Token} (h : Spaced toks) (h' : Spaced toks')
    (hlast : ∀ tok ∈ toks.getLast?, tok.IsChar) : Spaced (toks ++ toks') :=
  List.isChain_append.2 ⟨h, h', fun a ha _ _ => .inl (hlast a ha)⟩

theorem Spaced.flatMap {α : Type} {f : α → List Token} (l : List α)
    (h : ∀ a ∈ l, Spaced (f a) ∧ ∀ tok ∈ (f a).getLast?, tok.IsChar) : Spaced (l.flatMap f) := by
  induction l with
  | nil => exact List.isChain_nil
  | cons a l ih =>
    rw [List.flatMap_cons]
    exact (h a List.mem_cons_self).1.append (ih fun a ha => h a (List.mem_cons_of_mem _ ha))
      (h a List.mem_cons_self).2

theorem spaced_tokens (e : Entry) : Spaced e.tokens := by
  have hitems : Spaced (e.items.flatMap Assignment.tokens) := by
    refine Spaced.flatMap _ fun a _ => ⟨?_, ?_⟩
    · simp [Spaced, Assignment.tokens, Token.IsChar]
    · simp [Assignment.tokens, Token.IsChar]
  have hopen : Spaced [e.kind.keyword, .char '{'] := by simp [Spaced, Token.IsChar]
  refine List.isChain_append.2 ⟨hopen.append hitems (by simp [Token.IsChar]), by simp, ?_⟩
  intro a _ b hb
  cases hb
  exact .inr trivial

theorem spaced_fileText (es : List Entry) : Spaced (fileText es) := by
  refine Spaced.flatMap es fun e _ => ⟨spaced_tokens e, fun tok htok => ?_⟩
  rw [Entry.tokens, List.getLast?_concat] at htok
  cases htok
  trivial

/-- The characters of a file. -/
theorem char_of_mem_fileText {es : List Entry} {c : Char} (h : .char c ∈ fileText es) :
    c = '{' ∨ c = '}' ∨ c = '=' ∨ c = ';' := by
  obtain ⟨e, -, h⟩ := List.mem_flatMap.1 h
  have hkind : .char c ≠ e.kind.keyword := by cases e.kind <;> simp [EntryKind.keyword]
  rcases List.mem_append.1 h with h | h
  · rcases List.mem_append.1 h with h | h
    · rcases List.mem_pair.1 h with h | h
      · exact absurd h hkind
      · cases h
        exact .inl rfl
    · obtain ⟨a, -, h⟩ := List.mem_flatMap.1 h
      have hitem : .char c ≠ a.item.keyword := by cases a <;> simp [Assignment.item, Item.keyword]
      have hvalue : .char c ≠ a.value := by cases a <;> simp [Assignment.value]
      simp only [Assignment.tokens, List.mem_cons, List.not_mem_nil, or_false, hitem, hvalue,
        false_or, Token.char.injEq] at h
      exact .inr (.inr h)
  · cases List.mem_singleton.1 h
    exact .inr (.inl rfl)

/-- A token, or a number in the place of a boolean. -/
def Token.Swapped (a b : Token) : Prop := a = b ∨ ∃ v n, a = .BOOL v ∧ b = .CINT n

/-- No number is read in the place of a boolean. -/
theorem not_step_cint {p q q' : Parser} {v : Bool} {n : Int} (h : p.step (.BOOL v) = .ok q) :
    p.step (.CINT n) ≠ .ok q' := by
  obtain ⟨state, g⟩ := p
  cases state with
  | value item =>
    -- The grammar asks for one kind of value here.
    obtain ⟨a, rfl, ha, -⟩ := Parser.step_value_iff.1 h
    rintro h'
    obtain ⟨a', heq, ha', -⟩ := Parser.step_value_iff.1 h'
    cases a <;> cases ha <;> cases a' <;> cases ha' <;> cases heq
  | conf =>
    obtain ⟨kind, hkind, -⟩ := Parser.step_conf_iff.1 h
    cases kind <;> cases hkind
  | brace kind => cases (Parser.step_brace_iff.1 h).1
  | items kind =>
    rcases Parser.step_items_iff.1 h with ⟨htok, -⟩ | ⟨item, -, htok, -⟩
    · cases htok
    · cases item <;> cases htok
  | equals item => cases (Parser.step_equals_iff.1 h).1
  | semicolon a => cases (Parser.step_semicolon_iff.1 h).1

/-- A text in which a number is in the place of a boolean is not read. -/
theorem eq_of_run {toks toks' : List Token} (h : List.Forall₂ Token.Swapped toks toks')
    {p q q' : Parser} (hrun : Lib.run Parser.step p toks = .ok q)
    (hrun' : Lib.run Parser.step p toks' = .ok q') : toks = toks' := by
  induction h generalizing p with
  | nil => rfl
  | cons hswap _ ih =>
    obtain ⟨p₁, hstep, -, hrest, -⟩ :=
      Lib.run_cons_inv (Q := fun _ => True) hrun fun _ _ => trivial
    obtain ⟨p₁', hstep', -, hrest', -⟩ :=
      Lib.run_cons_inv (Q := fun _ => True) hrun' fun _ _ => trivial
    -- Up to the first token that differs, both runs are in the same state.
    rcases hswap with rfl | ⟨v, n, rfl, rfl⟩
    · cases hstep.symm.trans hstep'
      rw [ih hrest hrest']
    · exact absurd hstep' (not_step_cint hstep)

theorem run_of_yyparse {toks : List Token} {g g' : Globals} (h : yyparse toks g = .ok g') :
    ∃ q, Lib.run Parser.step ⟨.conf, g⟩ toks = .ok q := by
  rw [yyparse] at h
  split at h
  · next q hrun => exact ⟨q, hrun⟩
  · cases h

/-- The tokens the scanner makes of pieces are their meanings but for the booleans. -/
theorem forall₂_swapped (pieces : List Piece) : List.Forall₂ Token.Swapped
    (pieces.filterMap Piece.meaning) (pieces.filterMap Piece.token) := by
  induction pieces with
  | nil => exact .nil
  | cons p pieces ih =>
    cases p with
    | digit b => exact .cons (.inr ⟨b, _, rfl, rfl⟩) ih
    | blank b => exact ih
    | line body => exact ih
    | comment body => exact ih
    | _ => exact .cons (.inl rfl) ih

theorem filterMap_meaning_eq_iff {pieces : List Piece} :
    pieces.filterMap Piece.meaning = pieces.filterMap Piece.token ↔
      ∀ b, .digit b ∉ pieces := by
  induction pieces with
  | nil => simp
  | cons p pieces ih =>
    cases p with
    | digit b =>
      refine iff_of_false (fun h => ?_) fun h => h b List.mem_cons_self
      cases (List.cons_eq_cons.1 h).1
    | blank b => exact ih.trans (by simp)
    | line body => exact ih.trans (by simp)
    | comment body => exact ih.trans (by simp)
    | _ => exact (List.cons_inj_right _).trans (ih.trans (by simp))

/-! ## Reading the pieces -/

/-- What is known of the matches of pieces. -/
structure MatchesOf (pieces : List Piece) (ms : List (Rule × Bytes)) : Prop where
  tokens : tokensOf ms = pieces.filterMap Piece.token
  str : (∃ m ∈ ms, m.1 = .str ∧ 10 ∈ m.2) ↔ ∃ body, .str body 10 ∈ pieces
  comments : ms.countP (·.1 = .opening) = ms.countP (·.1 = .closing)
  any : ∀ m ∈ ms, m.1 = .any → ∃ b, m.2 = [b] ∧ b ∈ ascii "\x7b\x7d=;"

theorem MatchesOf.append {pieces pieces' : List Piece} {ms ms' : List (Rule × Bytes)}
    (h : MatchesOf pieces ms) (h' : MatchesOf pieces' ms') :
    MatchesOf (pieces ++ pieces') (ms ++ ms') where
  tokens := by rw [tokensOf_append, h.tokens, h'.tokens, List.filterMap_append]
  str := by
    simp only [List.mem_append, or_and_right, exists_or]
    exact or_congr h.str h'.str
  comments := by rw [List.countP_append, List.countP_append, h.comments, h'.comments]
  any m hm := (List.mem_append.1 hm).elim (h.any m) (h'.any m)

/-- A byte that continues no word and no number. -/
def Breaks (b : UInt8) : Prop := ¬(97 ≤ b.toNat ∧ b.toNat ≤ 122) ∧ isdigit b = false

/-- The characters of a file, as bytes. -/
theorem mem_chars_iff {b : UInt8} :
    b ∈ ascii "\x7b\x7d=;" ↔ b = 123 ∨ b = 125 ∨ b = 61 ∨ b = 59 := by
  simp [show ascii "\x7b\x7d=;" = [123, 125, 61, 59] from by decide]

/-- White space. -/
theorem mem_blanks_iff {b : UInt8} : b ∈ ascii " \t\n" ↔ (b = 32 ∨ b = 9) ∨ b = 10 := by
  simp [show ascii " \t\n" = [32, 9, 10] from by decide, or_assoc]

/-- A character that stands for itself. -/
theorem selects_char {b : UInt8} (hb : b ∈ ascii "\x7b\x7d=;") (rest : Bytes) :
    Lib.Selects scanner.pattern (scanner.rules .INITIAL) ([b] ++ rest) .any [b] := by
  have hchars := mem_chars_iff.1 hb
  refine selects_any (by rcases hchars with rfl | rfl | rfl | rfl <;> decide) ?_
  intro r hr v _ hmem
  have hstarts := hmem.starts hr
  have hb' : b.toNat = 123 ∨ b.toNat = 125 ∨ b.toNat = 61 ∨ b.toNat = 59 := by
    rcases hchars with rfl | rfl | rfl | rfl <;> simp
  cases r <;> simp only [Rule.Starts] at hstarts <;> omega

/-- A piece that is read by one match, if it is no string and no character. -/
theorem MatchesOf.single {p : Piece} {r : Rule} {w : Bytes}
    (htokens : tokensOf [(r, w)] = [p].filterMap Piece.token)
    (hr : r ≠ .str ∧ r ≠ .opening ∧ r ≠ .closing ∧ r ≠ .any)
    (hp : ∀ body, p ≠ .str body 10) : MatchesOf [p] [(r, w)] where
  tokens := htokens
  str := by
    refine iff_of_false ?_ ?_
    · rintro ⟨m, hm, hstr, -⟩
      cases List.mem_singleton.1 hm
      exact hr.1 hstr
    · rintro ⟨body, hbody⟩
      exact hp body (List.mem_singleton.1 hbody).symm
  comments := by simp [hr.2.1, hr.2.2.1]
  any m hm h := by
    cases List.mem_singleton.1 hm
    exact absurd h hr.2.2.2

/-- A comment is read by matches that are of no other piece. -/
theorem MatchesOf.comment (body : Bytes) {ms : List (Rule × Bytes)}
    (hms : ∀ m ∈ ms, m.1 = .inside) (w w' : Bytes) :
    MatchesOf [.comment body] ((.opening, w) :: (ms ++ [(.closing, w')])) := by
  have hrule : ∀ m ∈ (Rule.opening, w) :: (ms ++ [(.closing, w')]),
      m.1 = .opening ∨ m.1 = .inside ∨ m.1 = .closing := by
    intro m hm
    rcases List.mem_cons.1 hm with rfl | hm
    · exact .inl rfl
    rcases List.mem_append.1 hm with hm | hm
    · exact .inr (.inl (hms m hm))
    · cases List.mem_singleton.1 hm
      exact .inr (.inr rfl)
  refine ⟨tokensOf_comment hms w w', iff_of_false ?_ (by simp), by simp [countP_inside hms],
    fun m hm hany => ?_⟩
  · rintro ⟨m, hm, hstr, -⟩
    have hm' := hrule m hm
    simp [hstr] at hm'
  · have hm' := hrule m hm
    simp [hany] at hm'

/-- A boolean as a number. -/
def Literal.ofBool (b : Bool) : Literal where
  digits := if b then ascii "1" else ascii "0"
  nonempty := by cases b <;> decide
  isdigit := List.all_eq_true.1 (by cases b <;> decide)

/-- A piece is read as its matches, if what follows does not continue it. -/
theorem Piece.reads {p : Piece} (hwf : p.WellFormed) (hchar : ∀ b, p = .char b →
      b ∈ ascii "\x7b\x7d=;") {rest : Bytes}
    (hrest : ∀ tok ∈ p.meaning, tok.IsChar ∨ ∀ b ∈ rest.head?, Breaks b) :
    ∃ ms, scanner.Reads .INITIAL (p.text ++ rest) ms .INITIAL rest ∧ MatchesOf [p] ms := by
  cases p with
  | blank b =>
    rcases mem_blanks_iff.1 hwf with hblank | rfl
    · exact ⟨_, .single (selects_blank hblank) rfl, .single rfl (by simp) (by simp)⟩
    · exact ⟨_, .single selects_newline rfl, .single rfl (by simp) (by simp)⟩
  | line body => exact ⟨_, .single (selects_line hwf) rfl, .single rfl (by simp) (by simp)⟩
  | comment body =>
    obtain ⟨ms, hms, hreads⟩ := reads_comment hwf rest
    exact ⟨_, by simpa [Piece.text] using hreads, .comment body hms _ _⟩
  | word w tok =>
    obtain ⟨ws, hr, hw⟩ := mem_spellings_iff.1 hwf
    -- A word is no character, so that something else has to follow.
    have hbreaks : ∀ b ∈ rest.head?, Breaks b := (hrest tok rfl).resolve_left fun htok => by
      cases tok with
      | char c => cases hwf
      | _ => exact htok
    exact ⟨_, .single (selects_word hr hw fun b hb => (hbreaks b hb).1) rfl,
      .single rfl (by simp) (by simp)⟩
  | int s =>
    have hbreaks := (hrest _ rfl).resolve_left id
    exact ⟨_, .single (selects_cint s fun b hb => (hbreaks b hb).2) rfl,
      .single rfl (by simp) (by simp)⟩
  | digit b =>
    have hbreaks := (hrest _ rfl).resolve_left id
    refine ⟨_, .single (selects_cint (.ofBool b) fun b hb => (hbreaks b hb).2) rfl,
      .single ?_ (by simp) (by simp)⟩
    cases b <;> decide
  | str body close =>
    refine ⟨_, .single (selects_str hwf.1 hwf.2) rfl, ?_, ?_, by simp, by simp⟩
    · simp [tokensOf, scannerAction, ScannerAction.token?, Piece.token, Piece.meaning]
    · have hbody : 10 ∉ body := fun h => (hwf.1 10 h).2 rfl
      simp [hbody, eq_comm]
  | char b =>
    have hb := hchar b rfl
    have hchars := mem_chars_iff.1 hb
    refine ⟨_, .single (selects_char hb rest) ?_, ?_, by simp, by simp, ?_⟩
    · rcases hchars with rfl | rfl | rfl | rfl <;> decide
    · rcases hchars with rfl | rfl | rfl | rfl <;> decide
    · simp [hb]

section

variable {pieces : List Piece} (hwf : ∀ p ∈ pieces, p.WellFormed)
  (hchar : ∀ b, .char b ∈ pieces → b ∈ ascii "\x7b\x7d=;") {rest : Bytes}
  (hrest : ∀ b ∈ rest.head?, Breaks b)

include hwf hchar hrest

/-- Pieces of which the first token is a character continue no word and no number. -/
theorem breaks_of_pieces (hfirst : ∀ tok ∈ (pieces.filterMap Piece.meaning).head?, tok.IsChar) :
    ∀ b ∈ (pieces.flatMap Piece.text ++ rest).head?, Breaks b := by
  intro b hb
  cases pieces with
  | nil => exact hrest b hb
  | cons p pieces =>
    have hp := hwf p List.mem_cons_self
    cases p with
    | blank c =>
      cases hb
      rcases mem_blanks_iff.1 hp with (rfl | rfl) | rfl <;> exact ⟨by decide, by decide⟩
    | line body =>
      cases hb
      exact ⟨by decide, by decide⟩
    | comment body =>
      cases hb
      exact ⟨by decide, by decide⟩
    | word w tok =>
      have htok := hfirst tok rfl
      cases tok with
      | char c => cases hp
      | _ => cases htok
    | int s => cases hfirst _ rfl
    | digit v => cases hfirst _ rfl
    | str body close => cases hfirst _ rfl
    | char c =>
      cases hb
      have hc := mem_chars_iff.1 (hchar b List.mem_cons_self)
      rcases hc with rfl | rfl | rfl | rfl <;> exact ⟨by decide, by decide⟩

/-- Pieces are read one after the other. -/
theorem reads_pieces (hspaced : Spaced (pieces.filterMap Piece.meaning)) :
    ∃ ms, scanner.Reads .INITIAL (pieces.flatMap Piece.text ++ rest) ms .INITIAL rest ∧
      MatchesOf pieces ms := by
  induction pieces with
  | nil => exact ⟨[], .nil _ _, rfl, by simp, rfl, by simp⟩
  | cons p pieces ih =>
    have hwf' : ∀ p ∈ pieces, p.WellFormed := fun p hp => hwf p (List.mem_cons_of_mem _ hp)
    have hchar' : ∀ b, .char b ∈ pieces → b ∈ ascii "\x7b\x7d=;" :=
      fun b hb => hchar b (List.mem_cons_of_mem _ hb)
    have htail : Spaced (pieces.filterMap Piece.meaning) ∧
        ∀ tok ∈ p.meaning, ∀ tok' ∈ (pieces.filterMap Piece.meaning).head?,
          tok.IsChar ∨ tok'.IsChar := by
      cases hp : p.meaning with
      | none =>
        rw [List.filterMap_cons_none hp] at hspaced
        exact ⟨hspaced, by simp⟩
      | some tok =>
        rw [List.filterMap_cons_some hp, Spaced, List.isChain_cons] at hspaced
        refine ⟨hspaced.2, fun tok' htok' => ?_⟩
        cases htok'
        exact hspaced.1
    obtain ⟨ms', hreads', hms'⟩ := ih hwf' hchar' htail.1
    -- If the first piece needs a break behind it, the next token is a character.
    have hnext : ∀ tok ∈ p.meaning,
        tok.IsChar ∨ ∀ b ∈ (pieces.flatMap Piece.text ++ rest).head?, Breaks b := by
      intro tok htok
      by_cases hc : tok.IsChar
      · exact .inl hc
      · exact .inr (breaks_of_pieces hwf' hchar' hrest fun tok' htok' =>
          (htail.2 tok htok tok' htok').resolve_left hc)
    obtain ⟨ms, hreads, hms⟩ := Piece.reads (hwf p List.mem_cons_self)
      (fun b hb => hchar b (hb ▸ List.mem_cons_self)) hnext
    refine ⟨ms ++ ms', ?_, hms.append hms'⟩
    rw [List.flatMap_cons, List.append_assoc]
    exact hreads.append hreads'

end

end Nbstftp
