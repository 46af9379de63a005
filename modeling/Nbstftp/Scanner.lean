import Nbstftp.Numbers
import Nbstftp.Lib.Lexer

/-!
# The scanner

The rules of `scanner.l`, by start condition and in order (`rules`), with their patterns and what
`yylex` does for each (`scannerAction`): it goes on, returns a token, or returns what the parser
takes for the end of the file. They make a lexer (`scanner`), whose tokens are those of the parser
(`tokens`).

Of which form the text of a match is, is known rule by rule (`mem_pattern_iff`); and which match
comes next is known from the text at its start (`selects_word` and so on).
-/

namespace Nbstftp

inductive StartCondition
  | INITIAL | COMMENT
  deriving DecidableEq

/-- The rules: words that stand for a token, and the others in the order of the file. -/
inductive Rule
  | word (ws : List Bytes) (tok : Token)
  | blank | newline | cint | str
  /-- The start of a comment, its end and what stands inside. -/
  | opening | closing | inside
  | line
  | any
  deriving DecidableEq

/-- The keywords. -/
def keywords : List Rule :=
  [.word [ascii "server"] .SERVER,
    .word [ascii "bind"] .BIND,
    .word [ascii "port"] .PORT,
    .word [ascii "directory"] .DIRECTORY,
    .word [ascii "fixpath"] .FIXPATH,
    .word [ascii "user"] .USER,
    .word [ascii "group"] .GROUP,
    .word [ascii "pidfile"] .PIDFILE,
    .word [ascii "daemonize"] .DAEMONIZE,
    .word [ascii "readtimeout"] .READTIMEOUT,
    .word [ascii "listen"] .LISTEN,
    .word [ascii "module"] .MODULE,
    .word [ascii "name"] .NAME,
    .word [ascii "path"] .PATH,
    .word [ascii "modulesearchpath"] .MODSEARCHPATH]

def booleans : List Rule :=
  [.word [ascii "true", ascii "yes"] (.BOOL true), .word [ascii "false", ascii "no"] (.BOOL false)]

/-- The rules outside comments but for the last. -/
def initial : List Rule :=
  keywords ++ [.blank, .newline, .cint, .str] ++ booleans ++ [.opening, .line]

/-- The rules that are on, as `COMMENT` is exclusive. -/
def rules : StartCondition → List Rule
  | .INITIAL => initial ++ [.any]
  | .COMMENT => [.closing, .inside]

/-- The bytes of a class that names those that are not in it. -/
def bytesBut (l : Bytes) : Bytes := ((List.range 256).map UInt8.ofNat).filter (· ∉ l)

/-- The pattern `.`. -/
def dot : RegularExpression UInt8 := Lib.oneOf (bytesBut (ascii "\n"))

def Rule.pattern : Rule → RegularExpression UInt8
  | .word ws _ => (ws.map Lib.literal).sum
  | .blank => Lib.oneOf (ascii " \t")
  | .newline => Lib.literal (ascii "\n")
  | .cint => Lib.repeated (Lib.oneOf (ascii "0123456789"))
  | .str => Lib.literal (ascii "\"") * (Lib.oneOf (bytesBut (ascii "\"\n"))).star *
      Lib.oneOf (ascii "\"\n")
  | .opening => Lib.literal (ascii "/*")
  | .closing => Lib.literal (ascii "*/")
  | .inside =>
      Lib.repeated (Lib.oneOf (bytesBut (ascii "*")) + Lib.literal (ascii "\n")) + dot
  | .line => Lib.literal (ascii "//") * dot.star * Lib.literal (ascii "\n")
  | .any => dot

/-- What `yylex` does after a match: it goes on, or returns. The parser takes a value that is not
    positive for the end of the file. -/
inductive ScannerAction
  | goOn
  | token (tok : Token)
  | eof
  deriving DecidableEq

def ScannerAction.token? : ScannerAction → Option Token
  | .token tok => some tok
  | _ => none

/-- The actions, as to what is returned. A `char` is signed. -/
def scannerAction (r : Rule) (yytext : Bytes) : ScannerAction :=
  match r with
  | .word _ tok => .token tok
  | .cint => .token (.CINT (atoi yytext))
  | .str => .token (.STR (yytext.tail.dropLast.takeWhile (· != 0)))
  | .any =>
    match yytext with
    | [] => .eof
    | b :: _ => if 0 < b ∧ b < 128 then .token (.char (Char.ofNat b.toNat)) else .eof
  | .blank | .newline | .opening | .closing | .inside | .line => .goOn

/-- The start condition after `BEGIN`. -/
def enter (m : StartCondition) : Rule → StartCondition
  | .opening => .COMMENT
  | .closing => .INITIAL
  | _ => m

def scanner : Lib.Lexer StartCondition Rule UInt8 where
  pattern := Rule.pattern
  rules := rules
  enter := enter
  stops r yytext := scannerAction r yytext = .eof

/-- The tokens among some matches. -/
def tokensOf (ms : List (Rule × Bytes)) : List Token :=
  ms.filterMap fun m => (scannerAction m.1 m.2).token?

/-- The tokens of a text, as they are returned to the parser. -/
def tokens (m : StartCondition) (text : Bytes) : List Token := tokensOf (scanner.lex m text)

/-! ## What a rule matches -/

/-- The text of a match. -/
def Rule.Lexeme : Rule → Bytes → Prop
  | .word ws _, w => w ∈ ws
  | .blank, w => ∃ b, (b = 32 ∨ b = 9) ∧ w = [b]
  | .newline, w => w = [10]
  | .cint, w => w ≠ [] ∧ ∀ b ∈ w, isdigit b = true
  | .str, w => ∃ body close, (∀ b ∈ body, b ≠ 34 ∧ b ≠ 10) ∧ (close = 34 ∨ close = 10) ∧
      w = 34 :: (body ++ [close])
  | .opening, w => w = [47, 42]
  | .closing, w => w = [42, 47]
  | .inside, w => (w ≠ [] ∧ ∀ b ∈ w, b ≠ 42) ∨ ∃ b, b ≠ 10 ∧ w = [b]
  | .line, w => ∃ body, (∀ b ∈ body, b ≠ 10) ∧ w = 47 :: 47 :: (body ++ [10])
  | .any, w => ∃ b, b ≠ 10 ∧ w = [b]

theorem mem_bytesBut {l : Bytes} {b : UInt8} : b ∈ bytesBut l ↔ b ∉ l := by
  have hb : b ∈ (List.range 256).map UInt8.ofNat :=
    List.mem_map.2 ⟨b.toNat, List.mem_range.2 b.toNat_lt, UInt8.ofNat_toNat⟩
  simp [bytesBut, hb]

theorem isClass_dot : Lib.IsClass dot (· ≠ 10) := by
  intro w
  have hclass := Lib.isClass_oneOf (bytesBut (ascii "\n")) w
  simpa [dot, mem_bytesBut, show ascii "\n" = [10] from by decide] using hclass

theorem isdigit_iff_mem (b : UInt8) : b ∈ ascii "0123456789" ↔ isdigit b = true := by
  have hdigits : ascii "0123456789" = [48, 49, 50, 51, 52, 53, 54, 55, 56, 57] := by decide
  simp only [hdigits, List.mem_cons, List.not_mem_nil, or_false, isdigit, Bool.and_eq_true,
    decide_eq_true_eq, UInt8.le_iff_toNat_le, ← UInt8.toNat_inj]
  simp
  omega

theorem isClass_inside :
    Lib.IsClass (Lib.oneOf (bytesBut (ascii "*")) + Lib.literal (ascii "\n")) (· ≠ 42) := by
  intro w
  have hclass := Lib.isClass_oneOf (bytesBut (ascii "*")) w
  rw [Lib.mem_add, hclass, Lib.mem_literal]
  -- The newline of the pattern is in the class already.
  simp only [mem_bytesBut, show ascii "*" = [42] from by decide, List.mem_singleton,
    show ascii "\n" = [10] from by decide]
  exact or_iff_left_of_imp fun h => ⟨10, by decide, h⟩

/-- The pattern of a rule, in terms of the bytes it matches. -/
theorem mem_pattern_iff (r : Rule) (w : Bytes) : w ∈ r.pattern.matches' ↔ r.Lexeme w := by
  cases r with
  | word ws tok => simp [Rule.pattern, Rule.Lexeme, Lib.mem_sum, Lib.mem_literal]
  | blank =>
    have hblank : ascii " \t" = [32, 9] := by decide
    rw [Rule.pattern, hblank, Lib.isClass_oneOf [32, 9] w]
    simp [Rule.Lexeme]
  | newline => exact Lib.mem_literal
  | cint =>
    rw [Rule.pattern, (Lib.isClass_oneOf _).mem_repeated]
    simp only [isdigit_iff_mem]
    exact Iff.rfl
  | str =>
    have hclose : ascii "\"\n" = [34, 10] := by decide
    have hopen : ascii "\"" = [34] := by decide
    have hlast : ∀ w, w ∈ (Lib.oneOf ([34, 10] : Bytes)).matches' ↔ ∃ b, b ∈ [34, 10] ∧ w = [b] :=
      Lib.isClass_oneOf _
    rw [Rule.pattern, hclose, hopen]
    simp only [Rule.Lexeme, Lib.mem_mul, Lib.mem_literal, (Lib.isClass_oneOf _).mem_star,
      hlast, mem_bytesBut, List.mem_cons, List.not_mem_nil, or_false,
      not_or]
    constructor
    · rintro ⟨-, ⟨-, rfl, body, hbody, rfl⟩, -, ⟨close, hclose, rfl⟩, rfl⟩
      exact ⟨body, close, hbody, hclose, rfl⟩
    · rintro ⟨body, close, hbody, hclose, rfl⟩
      exact ⟨_, ⟨_, rfl, body, hbody, rfl⟩, _, ⟨close, hclose, rfl⟩, rfl⟩
  | opening => exact Lib.mem_literal
  | closing => exact Lib.mem_literal
  | inside =>
    rw [Rule.pattern, Lib.mem_add, isClass_inside.mem_repeated, isClass_dot w]
    exact Iff.rfl
  | line =>
    have hopen : ascii "//" = [47, 47] := by decide
    have hclose : ascii "\n" = [10] := by decide
    rw [Rule.pattern, hclose, hopen]
    simp only [Rule.Lexeme, Lib.mem_mul, Lib.mem_literal, isClass_dot.mem_star]
    constructor
    · rintro ⟨-, ⟨-, rfl, body, hbody, rfl⟩, -, rfl, rfl⟩
      exact ⟨body, hbody, rfl⟩
    · rintro ⟨body, hbody, rfl⟩
      exact ⟨_, ⟨_, rfl, body, hbody, rfl⟩, _, rfl, rfl⟩
  | any => exact isClass_dot w

/-! ## Which match is next -/

/-- A match, by the form of its text. -/
theorem selects_of {m : StartCondition} {rest w : Bytes} {r : Rule} (hne : w ≠ [])
    (hmem : r.Lexeme w)
    (hlongest : ∀ v, v <+: w ++ rest → v ≠ [] → ∀ r' ∈ rules m, r'.Lexeme v →
      v.length ≤ w.length)
    (hfirst : ∃ front back, rules m = front ++ r :: back ∧ ∀ r' ∈ front, ¬r'.Lexeme w) :
    Lib.Selects scanner.pattern (scanner.rules m) (w ++ rest) r w where
  isPrefix := List.prefix_append w rest
  nonempty := hne
  mem := (mem_pattern_iff r w).2 hmem
  longest v hv hne' r' hr' hmem' := hlongest v hv hne' r' hr' ((mem_pattern_iff r' v).1 hmem')
  first := by
    obtain ⟨front, back, hrules, hfront⟩ := hfirst
    exact ⟨front, back, hrules, fun r' hr' hmem' => hfront r' hr' ((mem_pattern_iff r' w).1 hmem')⟩

/-! ### In a comment -/

theorem selects_closing (rest : Bytes) :
    Lib.Selects scanner.pattern (scanner.rules .COMMENT) ([42, 47] ++ rest) .closing [42, 47] := by
  refine selects_of (by simp) rfl (fun v hv hne r hr hmem => ?_) ⟨[], [.inside], rfl, by simp⟩
  obtain ⟨v, rfl, -⟩ := (List.prefix_cons_iff.1 hv).resolve_left hne
  rcases List.mem_pair.1 hr with rfl | rfl
  · rw [show 42 :: v = [42, 47] from hmem]
  · -- Inside the comment, a star is matched on its own only.
    rcases hmem with ⟨-, hrun⟩ | ⟨b, -, heq⟩
    · exact absurd rfl (hrun 42 List.mem_cons_self)
    · simp [heq]

/-- A run without a star, up to the next one or to the end of the file. -/
theorem selects_run {run rest : Bytes} (hne : run ≠ []) (hrun : ∀ b ∈ run, b ≠ 42)
    (hrest : ∀ b ∈ rest.head?, b = 42) :
    Lib.Selects scanner.pattern (scanner.rules .COMMENT) (run ++ rest) .inside run := by
  have hclosing : ¬Rule.closing.Lexeme run := fun h => hrun 42 (by simp [show run = _ from h]) rfl
  refine selects_of hne (.inl ⟨hne, hrun⟩) (fun v hv hne' r hr hmem => ?_)
    ⟨[.closing], [], rfl, by simpa using hclosing⟩
  have hpos := List.length_pos_of_ne_nil hne
  rcases List.mem_pair.1 hr with rfl | rfl
  · -- The run does not start with a star.
    obtain ⟨b, run, rfl⟩ := List.exists_cons_of_ne_nil hne
    obtain ⟨v', rfl, -⟩ := (List.prefix_cons_iff.1 hv).resolve_left hne'
    obtain ⟨rfl, -⟩ := List.cons_eq_cons.1 (show b :: v' = [42, 47] from hmem)
    exact absurd rfl (hrun 42 List.mem_cons_self)
  · rcases hmem with ⟨-, hmem⟩ | ⟨b, -, rfl⟩
    · exact Lib.length_le_of_forall hv hmem fun b hb hne => hne (hrest b hb)
    · exact hpos

/-- A star that does not end the comment. -/
theorem selects_star {rest : Bytes} (hrest : rest.head? ≠ some 47) :
    Lib.Selects scanner.pattern (scanner.rules .COMMENT) ([42] ++ rest) .inside [42] := by
  refine selects_of (by simp) (.inr ⟨42, by decide, rfl⟩) (fun v hv hne r hr hmem => ?_)
    ⟨[.closing], [], rfl, by simp [Rule.Lexeme]⟩
  obtain ⟨v, rfl, hrest'⟩ := (List.prefix_cons_iff.1 hv).resolve_left hne
  rcases List.mem_pair.1 hr with rfl | rfl
  · -- Only a slash would make it the end.
    obtain ⟨-, rfl⟩ := List.cons_eq_cons.1 (show 42 :: v = [42, 47] from hmem)
    obtain ⟨t, rfl⟩ : [47] <+: rest := hrest'
    exact absurd rfl hrest
  · rcases hmem with ⟨-, hrun⟩ | ⟨b, -, heq⟩
    · exact absurd rfl (hrun 42 List.mem_cons_self)
    · simp [heq]

/-! ### Outside comments -/

theorem isdigit_iff (b : UInt8) : isdigit b = true ↔ 48 ≤ b.toNat ∧ b.toNat ≤ 57 := by
  simp [isdigit, UInt8.le_iff_toNat_le]

/-- The bytes with which the text of a match may start, if it is not a single byte. -/
def Rule.Starts : Rule → UInt8 → Prop
  | .word _ _, b => 97 ≤ b.toNat ∧ b.toNat ≤ 122
  | .blank, b => b.toNat = 32 ∨ b.toNat = 9
  | .newline, b => b.toNat = 10
  | .cint, b => 48 ≤ b.toNat ∧ b.toNat ≤ 57
  | .str, b => b.toNat = 34
  | .opening, b | .line, b => b.toNat = 47
  | _, _ => False

/-- The words are words of letters. -/
theorem letters_of_word {ws : List Bytes} {tok : Token} (hr : .word ws tok ∈ initial) {w : Bytes}
    (hw : w ∈ ws) : ∀ b ∈ w, 97 ≤ b.toNat ∧ b.toNat ≤ 122 := by
  have hall : ∀ r ∈ initial, (match r with
      | .word ws _ => ws.all fun w => w.all fun b => 97 ≤ b.toNat && b.toNat ≤ 122
      | _ => true) = true := by
    decide
  have hws := hall _ hr
  simp only [List.all_eq_true, Bool.and_eq_true, decide_eq_true_eq] at hws
  exact hws w hw

theorem Rule.Lexeme.starts {r : Rule} (hr : r ∈ initial) {b : UInt8} {w : Bytes}
    (h : r.Lexeme (b :: w)) : r.Starts b := by
  cases r with
  | word ws tok => exact letters_of_word hr h b List.mem_cons_self
  | blank =>
    obtain ⟨b, rfl | rfl, heq⟩ := h <;> cases heq
    · exact .inl rfl
    · exact .inr rfl
  | newline =>
    cases h
    rfl
  | cint => exact (isdigit_iff b).1 (h.2 b List.mem_cons_self)
  | str =>
    obtain ⟨body, close, -, -, heq⟩ := h
    cases heq
    rfl
  | opening =>
    cases h
    rfl
  | line =>
    obtain ⟨body, -, heq⟩ := h
    cases heq
    rfl
  | closing => exact absurd hr (by decide)
  | inside => exact absurd hr (by decide)
  | any => exact absurd hr (by decide)

/-- A rule comes next if no other one but the last matches as much. -/
theorem selects_initial {r : Rule} (hr : r ∈ initial) {w rest : Bytes} (hne : w ≠ [])
    (hmem : r.Lexeme w) (hother : ∀ r' ∈ initial, ∀ v, v <+: w ++ rest → v ≠ [] →
      r'.Lexeme v → v.length ≤ w.length ∧ (v = w → r' = r)) :
    Lib.Selects scanner.pattern (scanner.rules .INITIAL) (w ++ rest) r w := by
  refine selects_of hne hmem (fun v hv hne' r' hr' hmem' => ?_) ?_
  · rcases List.mem_append.1 hr' with hr' | hr'
    · exact (hother r' hr' v hv hne' hmem').1
    · -- The last rule matches a single byte.
      rw [List.mem_singleton.1 hr'] at hmem'
      obtain ⟨b, -, rfl⟩ := hmem'
      exact List.length_pos_of_ne_nil hne
  · obtain ⟨front, back, heq, hfront⟩ := List.eq_append_cons_of_mem hr
    refine ⟨front, back ++ [.any], by simp [rules, heq], fun r' hr' hmem' => hfront ?_⟩
    have hmem'' : r' ∈ initial := heq ▸ List.mem_append_left _ hr'
    rwa [← (hother r' hmem'' w (List.prefix_append w rest) hne hmem').2 rfl]

/-- The last rule comes next if no other one matches. -/
theorem selects_any {b : UInt8} {rest : Bytes} (hb : b ≠ 10)
    (hother : ∀ r ∈ initial, ∀ v, v <+: rest → ¬r.Lexeme (b :: v)) :
    Lib.Selects scanner.pattern (scanner.rules .INITIAL) ([b] ++ rest) .any [b] := by
  refine selects_of (by simp) ⟨b, hb, rfl⟩ (fun v hv hne r hr hmem => ?_)
    ⟨initial, [], rfl, fun r hr => hother r hr [] (List.nil_prefix)⟩
  obtain ⟨v, rfl, hv'⟩ := (List.prefix_cons_iff.1 hv).resolve_left hne
  rcases List.mem_append.1 hr with hr | hr
  · exact absurd hmem (hother r hr v hv')
  · rw [List.mem_singleton.1 hr] at hmem
    obtain ⟨b', -, heq⟩ := hmem
    simp [heq]

/-- A word is in one rule only, and not empty. -/
theorem word_unique {ws ws' : List Bytes} {tok tok' : Token} (hr : .word ws tok ∈ initial)
    (hr' : .word ws' tok' ∈ initial) {w : Bytes} (hw : w ∈ ws) (hw' : w ∈ ws') :
    w ≠ [] ∧ Rule.word ws' tok' = .word ws tok := by
  have hall : ∀ r ∈ initial, ∀ r' ∈ initial, (match r, r' with
      | .word ws _, .word ws' _ => ws.all fun w => w ≠ [] ∧ (w ∈ ws' → r' = r)
      | _, _ => true) = true := by
    decide
  have hws := hall _ hr _ hr'
  simp only [List.all_eq_true, decide_eq_true_eq] at hws
  exact (hws w hw).imp_right fun h => h hw'

section

variable {b : UInt8} {rest : Bytes}

/-- A word that is not continued by a letter. -/
theorem selects_word {ws : List Bytes} {tok : Token} (hr : .word ws tok ∈ initial) {w : Bytes}
    (hw : w ∈ ws) (hrest : ∀ b ∈ rest.head?, ¬(97 ≤ b.toNat ∧ b.toNat ≤ 122)) :
    Lib.Selects scanner.pattern (scanner.rules .INITIAL) (w ++ rest) (.word ws tok) w := by
  have hne := (word_unique hr hr hw hw).1
  refine selects_initial hr hne hw fun r' hr' v hv hne' hmem => ?_
  obtain ⟨b, w', rfl⟩ := List.exists_cons_of_ne_nil hne
  obtain ⟨v', rfl, -⟩ := (List.prefix_cons_iff.1 hv).resolve_left hne'
  have hletter := letters_of_word hr hw b List.mem_cons_self
  have hstarts := hmem.starts hr'
  cases r' with
  | word ws' tok' =>
    refine ⟨Lib.length_le_of_forall hv (letters_of_word hr' hmem) hrest, fun heq => ?_⟩
    exact (word_unique hr hr' hw (heq ▸ hmem)).2
  | _ => simp only [Rule.Starts] at hstarts <;> omega

theorem selects_blank (hb : b = 32 ∨ b = 9) :
    Lib.Selects scanner.pattern (scanner.rules .INITIAL) ([b] ++ rest) .blank [b] := by
  refine selects_initial (by decide) (by simp) ⟨b, hb, rfl⟩ fun r' hr' v hv hne hmem => ?_
  obtain ⟨v, rfl, -⟩ := (List.prefix_cons_iff.1 hv).resolve_left hne
  have hstarts := hmem.starts hr'
  have hb' : b.toNat = 32 ∨ b.toNat = 9 := by rcases hb with rfl | rfl <;> simp
  cases r' with
  | blank =>
    obtain ⟨b', -, heq⟩ := hmem
    exact ⟨by simp [heq], fun _ => rfl⟩
  | _ => simp only [Rule.Starts] at hstarts <;> omega

theorem selects_newline :
    Lib.Selects scanner.pattern (scanner.rules .INITIAL) ([10] ++ rest) .newline [10] := by
  refine selects_initial (by decide) (by simp) rfl fun r' hr' v hv hne hmem => ?_
  obtain ⟨v, rfl, -⟩ := (List.prefix_cons_iff.1 hv).resolve_left hne
  have hstarts := hmem.starts hr'
  cases r' with
  | newline => exact ⟨by simp [show 10 :: v = [10] from hmem], fun _ => rfl⟩
  | _ => simp [Rule.Starts] at hstarts

/-- A number that is not continued by a digit. -/
theorem selects_cint (s : Literal) (hrest : ∀ b ∈ rest.head?, isdigit b = false) :
    Lib.Selects scanner.pattern (scanner.rules .INITIAL) (s.digits ++ rest) .cint s.digits := by
  refine selects_initial (by decide) s.nonempty ⟨s.nonempty, s.isdigit⟩
    fun r' hr' v hv hne hmem => ?_
  obtain ⟨b, w, hw⟩ := List.exists_cons_of_ne_nil s.nonempty
  have hdigit := (isdigit_iff b).1 (s.isdigit b (hw ▸ List.mem_cons_self))
  have hv' := hv
  rw [hw] at hv'
  obtain ⟨v, rfl, -⟩ := (List.prefix_cons_iff.1 hv').resolve_left hne
  have hstarts := hmem.starts hr'
  cases r' with
  | cint =>
    refine ⟨Lib.length_le_of_forall hv hmem.2 fun b hb => ?_, fun _ => rfl⟩
    simp [hrest b hb]
  | _ => simp only [Rule.Starts] at hstarts <;> omega

/-- A string, up to the first quote or newline. -/
theorem selects_str {body : Bytes} (hbody : ∀ b ∈ body, b ≠ 34 ∧ b ≠ 10) {close : UInt8}
    (hclose : close = 34 ∨ close = 10) :
    Lib.Selects scanner.pattern (scanner.rules .INITIAL) (34 :: (body ++ [close]) ++ rest) .str
      (34 :: (body ++ [close])) := by
  refine selects_initial (by decide) (by simp) ⟨body, close, hbody, hclose, rfl⟩
    fun r' hr' v hv hne hmem => ?_
  obtain ⟨v, rfl, hrest⟩ := (List.prefix_cons_iff.1 hv).resolve_left hne
  have hstarts := hmem.starts hr'
  cases r' with
  | str =>
    obtain ⟨body', close', hbody', -, heq⟩ := hmem
    obtain ⟨-, rfl⟩ := List.cons_eq_cons.1 heq
    have hv' : body' <+: body ++ close :: rest := by
      refine (List.prefix_append body' [close']).trans ?_
      simpa using hrest
    have hle := Lib.length_le_of_forall hv' hbody' (by rcases hclose with rfl | rfl <;> simp)
    exact ⟨by simpa using hle, fun _ => rfl⟩
  | _ => simp [Rule.Starts] at hstarts

theorem selects_opening :
    Lib.Selects scanner.pattern (scanner.rules .INITIAL) ([47, 42] ++ rest) .opening [47, 42] := by
  refine selects_initial (by decide) (by simp) rfl fun r' hr' v hv hne hmem => ?_
  obtain ⟨v, rfl, hrest⟩ := (List.prefix_cons_iff.1 hv).resolve_left hne
  have hstarts := hmem.starts hr'
  cases r' with
  | opening => exact ⟨by simp [show 47 :: v = [47, 42] from hmem], fun _ => rfl⟩
  | line =>
    obtain ⟨body, -, heq⟩ := hmem
    obtain ⟨-, rfl⟩ := List.cons_eq_cons.1 heq
    exact absurd (List.cons_prefix_cons.1 hrest).1 (by decide)
  | _ => simp [Rule.Starts] at hstarts

/-- A single-line comment. -/
theorem selects_line {body : Bytes} (hbody : ∀ b ∈ body, b ≠ 10) :
    Lib.Selects scanner.pattern (scanner.rules .INITIAL) (47 :: 47 :: (body ++ [10]) ++ rest) .line
      (47 :: 47 :: (body ++ [10])) := by
  refine selects_initial (by decide) (by simp) ⟨body, hbody, rfl⟩ fun r' hr' v hv hne hmem => ?_
  obtain ⟨v, rfl, hrest⟩ := (List.prefix_cons_iff.1 hv).resolve_left hne
  have hstarts := hmem.starts hr'
  cases r' with
  | opening =>
    obtain ⟨-, rfl⟩ := List.cons_eq_cons.1 (show 47 :: v = [47, 42] from hmem)
    exact absurd (List.cons_prefix_cons.1 hrest).1 (by decide)
  | line =>
    obtain ⟨body', hbody', heq⟩ := hmem
    obtain ⟨-, rfl⟩ := List.cons_eq_cons.1 heq
    have hv' : body' <+: body ++ 10 :: rest := by
      refine (List.prefix_append body' [10]).trans ?_
      simpa using (List.cons_prefix_cons.1 hrest).2
    have hle := Lib.length_le_of_forall hv' hbody' (by simp)
    exact ⟨by simpa using hle, fun _ => rfl⟩
  | _ => simp [Rule.Starts] at hstarts

end

end Nbstftp
