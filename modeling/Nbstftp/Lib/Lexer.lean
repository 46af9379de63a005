import Mathlib.Computability.RegularExpressions

/-!
# Longest match, first rule

A lexer has a list of rules, each with a pattern. Of a text it takes the longest word at its start
that some rule matches, and the first rule that does (`select`); there is one such word and rule
(`select_eq_some_iff`), or no rule matches anything (`select_eq_none_iff`).

The patterns are regular expressions over the symbols, of which `oneOf` (a class of symbols),
`literal` and `repeated` are put together.

Which rules are on depends on the start condition, which rules may change. A text is read match by
match (`Lexer.lex`), until a rule stops the lexer or none matches: a part that is read
(`Lexer.Reads`) is a part of that (`Lexer.Reads.lex_eq`).
-/

namespace Nbstftp.Lib

open RegularExpression

variable {α β : Type*}

/-! ## Patterns -/

/-- A symbol of a class. -/
def oneOf (l : List α) : RegularExpression α := (l.map char).sum

/-- The word itself. -/
def literal (w : List α) : RegularExpression α := (w.map char).prod

/-- The pattern once or more. -/
def repeated (P : RegularExpression α) : RegularExpression α := P * P.star

theorem mem_sum {l : List (RegularExpression α)} {w : List α} :
    w ∈ l.sum.matches' ↔ ∃ P ∈ l, w ∈ P.matches' := by
  induction l with
  | nil => exact iff_of_false (Set.notMem_empty w) (by simp)
  | cons P l ih => simp [Language.mem_add, ih]

theorem mem_char {a : α} {w : List α} : w ∈ (char a).matches' ↔ w = [a] := Iff.rfl

/-- A pattern matches the symbols of a class. -/
def IsClass (P : RegularExpression α) (p : α → Prop) : Prop :=
  ∀ w, w ∈ P.matches' ↔ ∃ a, p a ∧ w = [a]

theorem isClass_oneOf (l : List α) : IsClass (oneOf l) (· ∈ l) := by
  intro w
  simp only [oneOf, mem_sum, List.mem_map, exists_exists_and_eq_and, mem_char]

theorem mem_literal {v w : List α} : w ∈ (literal v).matches' ↔ w = v := by
  induction v generalizing w with
  | nil => simp [literal, Language.mem_one]
  | cons a v ih =>
    rw [literal, List.map_cons, List.prod_cons, matches'_mul, Language.mem_mul, ← literal]
    constructor
    · rintro ⟨x, hx, y, hy, rfl⟩
      rw [mem_char.1 hx, ih.1 hy, List.singleton_append]
    · rintro rfl
      exact ⟨[a], rfl, v, ih.2 rfl, rfl⟩

theorem mem_mul {P Q : RegularExpression α} {w : List α} :
    w ∈ (P * Q).matches' ↔ ∃ x ∈ P.matches', ∃ y ∈ Q.matches', x ++ y = w := by
  rw [matches'_mul, Language.mem_mul]

theorem mem_add {P Q : RegularExpression α} {w : List α} :
    w ∈ (P + Q).matches' ↔ w ∈ P.matches' ∨ w ∈ Q.matches' := by
  rw [matches'_add, Language.mem_add]

/-- The words over a class of symbols. -/
theorem IsClass.mem_star {P : RegularExpression α} {p : α → Prop} (hP : IsClass P p)
    {w : List α} : w ∈ P.star.matches' ↔ ∀ a ∈ w, p a := by
  rw [matches'_star, Language.mem_kstar]
  constructor
  · rintro ⟨L, rfl, hL⟩ a ha
    obtain ⟨v, hv, hav⟩ := List.mem_flatten.1 ha
    obtain ⟨b, hb, rfl⟩ := (hP v).1 (hL v hv)
    exact List.mem_singleton.1 hav ▸ hb
  · -- The word is its symbols, one after the other.
    intro h
    refine ⟨w.map fun a => [a], by rw [← List.flatMap_def, List.flatMap_singleton'], ?_⟩
    intro v hv
    obtain ⟨a, ha, rfl⟩ := List.mem_map.1 hv
    exact (hP _).2 ⟨a, h a ha, rfl⟩

theorem IsClass.mem_repeated {P : RegularExpression α} {p : α → Prop} (hP : IsClass P p)
    {w : List α} : w ∈ (repeated P).matches' ↔ w ≠ [] ∧ ∀ a ∈ w, p a := by
  rw [repeated, mem_mul]
  constructor
  · rintro ⟨x, hx, y, hy, rfl⟩
    obtain ⟨a, ha, rfl⟩ := (hP x).1 hx
    refine ⟨by simp, fun b hb => ?_⟩
    rcases List.mem_cons.1 hb with rfl | hb
    · exact ha
    · exact hP.mem_star.1 hy b hb
  · rintro ⟨hne, h⟩
    obtain ⟨a, w, rfl⟩ := List.exists_cons_of_ne_nil hne
    exact ⟨[a], (hP _).2 ⟨a, h a List.mem_cons_self, rfl⟩, w,
      hP.mem_star.2 fun b hb => h b (List.mem_cons_of_mem a hb), rfl⟩

/-- A word over a class of symbols that starts a text ends where another symbol follows. -/
theorem length_le_of_forall {p : α → Prop} {v w rest : List α} (hv : v <+: w ++ rest)
    (hp : ∀ a ∈ v, p a) (hrest : ∀ a ∈ rest.head?, ¬p a) : v.length ≤ w.length := by
  by_contra hlong
  cases rest with
  | nil => exact hlong (by simpa using hv.length_le)
  | cons a rest =>
    -- A longer word has the symbol that follows, which is not of the class.
    have hw : w ++ [a] <+: v :=
      List.prefix_of_prefix_length_le ⟨rest, by simp⟩ hv (by simp; omega)
    exact hrest a rfl (hp a (hw.subset (by simp)))

/-! ## The policy -/

section

variable [DecidableEq α] (pattern : β → RegularExpression α)

/-- The length of the longest word at the start of a text that a rule matches, if it is not
    empty. -/
def longest (rules : List β) (text : List α) : ℕ :=
  Nat.findGreatest (fun n => ∃ r ∈ rules, text.take n ∈ (pattern r).matches') text.length

/-- The word, and the first rule that matches it. -/
def select (rules : List β) (text : List α) : Option (β × List α) :=
  let w := text.take (longest pattern rules text)
  if w = [] then none
  else (rules.find? fun r => w ∈ (pattern r).matches').map fun r => (r, w)

/-- What the policy asks of a rule and a word. -/
structure Selects (rules : List β) (text : List α) (r : β) (w : List α) : Prop where
  isPrefix : w <+: text
  nonempty : w ≠ []
  mem : w ∈ (pattern r).matches'
  longest : ∀ v, v <+: text → v ≠ [] → ∀ r' ∈ rules, v ∈ (pattern r').matches' →
    v.length ≤ w.length
  first : ∃ front back, rules = front ++ r :: back ∧ ∀ r' ∈ front, w ∉ (pattern r').matches'

variable {pattern} {rules : List β} {text : List α} {r : β} {w : List α}

omit [DecidableEq α] in
theorem Selects.mem_rules (h : Selects pattern rules text r w) : r ∈ rules := by
  obtain ⟨front, back, hrules, -⟩ := h.first
  simp [hrules]

theorem length_take_longest :
    (text.take (longest pattern rules text)).length = longest pattern rules text :=
  List.length_take_of_le (Nat.findGreatest_le _)

/-- Unless it is empty, some rule matches the word. -/
theorem exists_longest (h : longest pattern rules text ≠ 0) :
    ∃ r ∈ rules, text.take (longest pattern rules text) ∈ (pattern r).matches' :=
  Nat.findGreatest_of_ne_zero rfl h

/-- The word is as long as any that a rule matches. -/
theorem le_longest {v : List α} (hv : v <+: text) (hr : r ∈ rules)
    (hmem : v ∈ (pattern r).matches') : v.length ≤ longest pattern rules text :=
  Nat.le_findGreatest hv.length_le ⟨r, hr, by rwa [← List.prefix_iff_eq_take.1 hv]⟩

theorem select_eq_some_iff :
    select pattern rules text = some (r, w) ↔ Selects pattern rules text r w := by
  constructor
  · intro h
    rw [select] at h
    split at h
    · cases h
    · next hne =>
      obtain ⟨r', hfind, heq⟩ := Option.map_eq_some_iff.1 h
      cases heq
      obtain ⟨hmem, front, back, hrules, hfront⟩ := List.find?_eq_some_iff_append.1 hfind
      refine ⟨List.take_prefix _ _, hne, by simpa using hmem, ?_, front, back, hrules, ?_⟩
      · intro v hv _ r' hr' hmem'
        rw [length_take_longest]
        exact le_longest hv hr' hmem'
      · simpa using hfront
  · intro h
    obtain ⟨front, back, hrules, hfront⟩ := h.first
    have hw : text.take (longest pattern rules text) = w := by
      have hle := le_longest h.isPrefix h.mem_rules h.mem
      have hpos := List.length_pos_of_ne_nil h.nonempty
      obtain ⟨r', hr', hmem'⟩ := @exists_longest _ _ _ pattern rules text (by omega)
      have hge := h.longest _ (List.take_prefix _ _)
        (List.ne_nil_of_length_pos (by rw [length_take_longest]; omega)) r' hr' hmem'
      rw [length_take_longest] at hge
      -- Both are the part of the text of that length.
      rw [List.prefix_iff_eq_take.1 h.isPrefix, Nat.le_antisymm hge hle]
    have hfind : rules.find? (fun r => w ∈ (pattern r).matches') = some r :=
      List.find?_eq_some_iff_append.2
        ⟨by simpa using h.mem, front, back, hrules, by simpa using hfront⟩
    rw [select]
    rw [hw, if_neg h.nonempty, hfind, Option.map_some]

theorem select_eq_none_iff : select pattern rules text = none ↔
    ∀ v, v <+: text → v ≠ [] → ∀ r ∈ rules, v ∉ (pattern r).matches' := by
  constructor
  · intro h v hv hne r hr hmem
    have hle := le_longest hv hr hmem
    have hpos := List.length_pos_of_ne_nil hne
    have htake : text.take (longest pattern rules text) ≠ [] :=
      List.ne_nil_of_length_pos (by rw [length_take_longest]; omega)
    obtain ⟨r', hr', hmem'⟩ := @exists_longest _ _ _ pattern rules text (by omega)
    rw [select] at h
    rw [if_neg htake, Option.map_eq_none_iff, List.find?_eq_none] at h
    exact h r' hr' (decide_eq_true hmem')
  · intro h
    rw [select]
    split
    · rfl
    · next hne =>
      rw [Option.map_eq_none_iff, List.find?_eq_none]
      intro r hr hmem
      exact h _ (List.take_prefix _ _) hne r hr (by simpa using hmem)

end

/-! ## Reading a text -/

/-- A lexer over symbols `α`, with rules `β` and start conditions `μ`. -/
structure Lexer (μ β α : Type*) where
  pattern : β → RegularExpression α
  /-- The rules that are on, in order. -/
  rules : μ → List β
  /-- The start condition after a match. -/
  enter : μ → β → μ
  /-- The matches after which nothing more is read. -/
  stops : β → List α → Bool

namespace Lexer

variable {μ β α : Type*} [DecidableEq α] (L : Lexer μ β α)

/-- The match at the start of a text. -/
def match? (m : μ) (text : List α) : Option (β × List α) := select L.pattern (L.rules m) text

theorem match?_eq_some_iff {m : μ} {text w : List α} {r : β} :
    L.match? m text = some (r, w) ↔ Selects L.pattern (L.rules m) text r w :=
  select_eq_some_iff

/-- The matches of a text, in order. -/
def lex (m : μ) (text : List α) : List (β × List α) :=
  match _h : L.match? m text with
  | none => []
  | some (r, w) => (r, w) :: if L.stops r w then [] else lex (L.enter m r) (text.drop w.length)
termination_by text.length
decreasing_by
  -- A match is not empty, so that the rest is shorter.
  obtain ⟨hw, hne, -⟩ := L.match?_eq_some_iff.1 _h
  have hpos := List.length_pos_of_ne_nil hne
  have hle := hw.length_le
  rw [List.length_drop]
  omega

/-- A part of a text is read by matches that do not stop the lexer. -/
inductive Reads : μ → List α → List (β × List α) → μ → List α → Prop
  | nil (m : μ) (text : List α) : Reads m text [] m text
  | cons {m m' : μ} {text text' w : List α} {r : β} {ms : List (β × List α)}
      (hselect : Selects L.pattern (L.rules m) (w ++ text) r w) (hgo : L.stops r w = false)
      (h : Reads (L.enter m r) text ms m' text') : Reads m (w ++ text) ((r, w) :: ms) m' text'

variable {L} {m m' m'' : μ} {text text' text'' w : List α} {r : β} {ms ms' : List (β × List α)}

theorem lex_of_match?_eq_none (h : L.match? m text = none) : L.lex m text = [] := by
  rw [lex]
  split
  · rfl
  · next h' => cases h.symm.trans h'

/-- The first match of a text. -/
theorem lex_of_selects (h : Selects L.pattern (L.rules m) (w ++ text) r w) :
    L.lex m (w ++ text) = (r, w) :: if L.stops r w then [] else L.lex (L.enter m r) text := by
  have hmatch := L.match?_eq_some_iff.2 h
  rw [lex]
  split
  · next h' => cases hmatch.symm.trans h'
  · next h' =>
    cases hmatch.symm.trans h'
    rw [List.drop_left]

/-- Every match is one of a rule that is on. -/
theorem exists_of_mem_lex {x : β × List α} (h : x ∈ L.lex m text) :
    ∃ m', x.1 ∈ L.rules m' ∧ x.2 ∈ (L.pattern x.1).matches' := by
  induction hlength : text.length using Nat.strong_induction_on generalizing m text with
  | _ n ih =>
    rw [lex] at h
    split at h
    · cases h
    · next r w hmatch =>
      have hselect := L.match?_eq_some_iff.1 hmatch
      have hpos := List.length_pos_of_ne_nil hselect.nonempty
      have hle := hselect.isPrefix.length_le
      rcases List.mem_cons.1 h with rfl | h
      · exact ⟨m, hselect.mem_rules, hselect.mem⟩
      · split at h
        · cases h
        · exact ih _ (by rw [← hlength, List.length_drop]; omega) h rfl

/-- The matches are those of a part of the text. -/
theorem lex_isPrefix (m : μ) (text : List α) : (L.lex m text).flatMap Prod.snd <+: text := by
  induction hlength : text.length using Nat.strong_induction_on generalizing m text with
  | _ n ih =>
    rw [lex]
    split
    · exact List.nil_prefix
    · next r w hmatch =>
      have hselect := L.match?_eq_some_iff.1 hmatch
      have hpos := List.length_pos_of_ne_nil hselect.nonempty
      have hle := hselect.isPrefix.length_le
      obtain ⟨rest, rfl⟩ := hselect.isPrefix
      rw [List.flatMap_cons, List.prefix_append_right_inj, List.drop_left]
      split
      · exact List.nil_prefix
      · exact ih rest.length (by rw [← hlength, List.length_append]; omega) _ _ rfl

omit [DecidableEq α] in
theorem Reads.single (h : Selects L.pattern (L.rules m) (w ++ text) r w)
    (hgo : L.stops r w = false) : L.Reads m (w ++ text) [(r, w)] (L.enter m r) text :=
  .cons h hgo (.nil _ _)

omit [DecidableEq α] in
theorem Reads.append (h : L.Reads m text ms m' text') (h' : L.Reads m' text' ms' m'' text'') :
    L.Reads m text (ms ++ ms') m'' text'' := by
  induction h with
  | nil => exact h'
  | cons hselect hgo _ ih => exact .cons hselect hgo (ih h')

/-- What is read comes first, and then what is read of the rest. -/
theorem Reads.lex_eq (h : L.Reads m text ms m' text') : L.lex m text = ms ++ L.lex m' text' := by
  induction h with
  | nil => rfl
  | cons hselect hgo _ ih =>
    rw [lex_of_selects hselect, hgo, if_neg (by simp), ih, List.cons_append]

omit [DecidableEq α] in
/-- What is read is the text in front of the rest. -/
theorem Reads.text_eq (h : L.Reads m text ms m' text') : text = ms.flatMap Prod.snd ++ text' := by
  induction h with
  | nil => rfl
  | cons _ _ _ ih => rw [List.flatMap_cons, List.append_assoc, ← ih]

end Lexer

end Nbstftp.Lib
