import Nbstftp.Configuration
import Nbstftp.Lib.Trace

/-!
# The parser

The grammar of the configuration file has blocks (`Entry`), each a keyword and a list of
assignments in braces. The parser reads a token at a time (`Parser.step`) and runs the
actions in reading order; what it cannot read ends the process (`yyerror`).

What it reads are the texts of lists of blocks, and what it does is what their actions do
one after the other (`yyparse_iff`).
-/

namespace Nbstftp

/-- What the scanner returns, with the value in `yylval`. -/
inductive Token
  | CINT (ival : Int)
  /-- `sval` points into the buffer of the scanner until it is copied, one token later: of a
      text that fits the buffer, it is the string there. -/
  | STR (sval : Bytes)
  | BOOL (bval : Bool)
  | SERVER | BIND | PORT | DIRECTORY | USER | GROUP | PIDFILE | DAEMONIZE | READTIMEOUT
  | LISTEN | FIXPATH | MODULE | NAME | PATH | MODSEARCHPATH
  /-- A character that is in no rule of the scanner. -/
  | char (c : Char)
  deriving DecidableEq

/-- The kinds of blocks. -/
inductive EntryKind
  | server | listen | module
  deriving DecidableEq

/-- The keyword of a block. -/
def EntryKind.keyword : EntryKind → Token
  | .server => .SERVER
  | .listen => .LISTEN
  | .module => .MODULE

/-- The block a keyword opens. -/
def EntryKind.ofKeyword : Token → Option EntryKind
  | .SERVER => some .server
  | .LISTEN => some .listen
  | .MODULE => some .module
  | _ => none

/-- The action after the keyword. -/
def EntryKind.action : EntryKind → Globals → Globals
  | .server => serverEntry
  | .listen => listenEntry
  | .module => moduleEntry

/-- What is assigned in a block. -/
inductive Item
  | directory | user | group | daemonize | pidfile | readtimeout | fixpath | moduleSearchPath
  | bind | port
  | path | name
  deriving DecidableEq

namespace Item

/-- The blocks an item may stand in. -/
def kind : Item → EntryKind
  | .bind | .port => .listen
  | .path | .name => .module
  | _ => .server

def keyword : Item → Token
  | .directory => .DIRECTORY
  | .user => .USER
  | .group => .GROUP
  | .daemonize => .DAEMONIZE
  | .pidfile => .PIDFILE
  | .readtimeout => .READTIMEOUT
  | .fixpath => .FIXPATH
  | .moduleSearchPath => .MODSEARCHPATH
  | .bind => .BIND
  | .port => .PORT
  | .path => .PATH
  | .name => .NAME

/-- The item a keyword stands for. -/
def ofKeyword : Token → Option Item
  | .DIRECTORY => some .directory
  | .USER => some .user
  | .GROUP => some .group
  | .DAEMONIZE => some .daemonize
  | .PIDFILE => some .pidfile
  | .READTIMEOUT => some .readtimeout
  | .FIXPATH => some .fixpath
  | .MODSEARCHPATH => some .moduleSearchPath
  | .BIND => some .bind
  | .PORT => some .port
  | .PATH => some .path
  | .NAME => some .name
  | _ => none

end Item

/-- An item with its value. -/
inductive Assignment
  | directory (sval : Bytes)
  | user (sval : Bytes)
  | group (sval : Bytes)
  | daemonize (bval : Bool)
  | pidfile (sval : Bytes)
  | readtimeout (ival : Int)
  | fixpath (bval : Bool)
  | moduleSearchPath (sval : Bytes)
  | bind (sval : Bytes)
  | port (ival : Int)
  | path (sval : Bytes)
  | name (sval : Bytes)
  deriving DecidableEq

namespace Assignment

/-- The assignment of the value of a token, if it is of the right kind. -/
def ofValue : Item → Token → Option Assignment
  | .directory, .STR s => some (.directory s)
  | .user, .STR s => some (.user s)
  | .group, .STR s => some (.group s)
  | .daemonize, .BOOL b => some (.daemonize b)
  | .pidfile, .STR s => some (.pidfile s)
  | .readtimeout, .CINT n => some (.readtimeout n)
  | .fixpath, .BOOL b => some (.fixpath b)
  | .moduleSearchPath, .STR s => some (.moduleSearchPath s)
  | .bind, .STR s => some (.bind s)
  | .port, .CINT n => some (.port n)
  | .path, .STR s => some (.path s)
  | .name, .STR s => some (.name s)
  | _, _ => none

def item : Assignment → Item
  | .directory _ => .directory
  | .user _ => .user
  | .group _ => .group
  | .daemonize _ => .daemonize
  | .pidfile _ => .pidfile
  | .readtimeout _ => .readtimeout
  | .fixpath _ => .fixpath
  | .moduleSearchPath _ => .moduleSearchPath
  | .bind _ => .bind
  | .port _ => .port
  | .path _ => .path
  | .name _ => .name

/-- The token of the value. -/
def value : Assignment → Token
  | .directory s | .user s | .group s | .pidfile s | .moduleSearchPath s | .bind s | .path s
  | .name s => .STR s
  | .daemonize b | .fixpath b => .BOOL b
  | .readtimeout n | .port n => .CINT n

def action : Assignment → Globals → Globals
  | .directory s => serverDirectory s
  | .user s => serverUser s
  | .group s => serverGroup s
  | .daemonize b => serverDaemonize b
  | .pidfile s => serverPidfile s
  | .readtimeout n => serverReadtimeout n
  | .fixpath b => serverFixpath b
  | .moduleSearchPath s => serverModuleSearchPath s
  | .bind s => listenBind s
  | .port n => listenPort n
  | .path s => modulePath s
  | .name s => moduleName s

end Assignment

/-! ## Reading tokens -/

/-- What is to be read next: a block, the brace that opens one, an item or the brace that
    closes the block, the `=`, the value, the `;`. -/
inductive ParserState
  | conf
  | brace (kind : EntryKind)
  | items (kind : EntryKind)
  | equals (item : Item)
  | value (item : Item)
  | semicolon (a : Assignment)
  deriving DecidableEq

/-- The parser, and what its actions have made. -/
structure Parser where
  state : ParserState
  globals : Globals

namespace Parser

/-- A token is read, or ends the process. -/
def step (p : Parser) (tok : Token) : Except Exit Parser :=
  match p.state with
  | .conf =>
    match EntryKind.ofKeyword tok with
    | some kind => .ok ⟨.brace kind, kind.action p.globals⟩
    | none => .error .failure
  | .brace kind => if tok = .char '{' then .ok { p with state := .items kind } else .error .failure
  | .items kind =>
    if tok = .char '}' then .ok { p with state := .conf }
    else match Item.ofKeyword tok with
      | some item =>
        if item.kind = kind then .ok { p with state := .equals item } else .error .failure
      | none => .error .failure
  | .equals item => if tok = .char '=' then .ok { p with state := .value item } else .error .failure
  | .value item =>
    match Assignment.ofValue item tok with
    | some a => .ok { p with state := .semicolon a }
    | none => .error .failure
  | .semicolon a =>
    if tok = .char ';' then .ok ⟨.items a.item.kind, a.action p.globals⟩ else .error .failure

end Parser

/-- The end of the file may come between blocks only. -/
def yyparse (toks : List Token) (g : Globals) : Except Exit Globals :=
  match Lib.run Parser.step ⟨.conf, g⟩ toks with
  | .ok p => if p.state = .conf then .ok p.globals else .error .failure
  | .error e => .error e

/-- What `ParseConfig` sets after the checks: a pid file, and a timeout that is too short. -/
def Configuration.completed (c : Configuration) : Configuration :=
  { c with
    pidfile := some (c.pidfile.getD (ascii "/var/run/nbstftp.pid"))
    readtimeout := if c.readtimeout < 2 then 5 else c.readtimeout }

/-- The result, and what is left behind. The file is `none` if it cannot be opened. -/
def parseConfig (file : Option (List Token)) (g : Globals) : Except Exit (Int × Globals) :=
  match file with
  | none => .ok (1, g)
  | some toks =>
    match yyparse toks g with
    | .error e => .error e
    | .ok g =>
      match g.config with
      | none => .ok (1, g)
      | some p =>
        if (g.configs p).directory = none then .ok (1, g)
        else .ok (0, g.setConfig Configuration.completed)

/-! ## Blocks -/

/-- A block, whose items are those of its kind. -/
structure Entry where
  kind : EntryKind
  items : List Assignment
  kind_eq : ∀ a ∈ items, a.item.kind = kind

/-- The text of an assignment. -/
def Assignment.tokens (a : Assignment) : List Token :=
  [a.item.keyword, .char '=', a.value, .char ';']

namespace Entry

/-- The text of a block. -/
def tokens (e : Entry) : List Token :=
  [e.kind.keyword, .char '{'] ++ e.items.flatMap Assignment.tokens ++ [.char '}']

/-- The actions of a block, in reading order. -/
def action (e : Entry) (g : Globals) : Globals :=
  e.items.foldl (fun g a => a.action g) (e.kind.action g)

end Entry

/-- A server block with a directory, and a listen block. -/
def Sample.serverBlock : Entry := ⟨.server, [.directory (ascii "/srv")], by decide⟩

def Sample.listenBlock : Entry := ⟨.listen, [.port 69], by decide⟩

/-- The text of a file. -/
def fileText (es : List Entry) : List Token := es.flatMap Entry.tokens

/-- The actions of a file. -/
def fileAction (es : List Entry) (g : Globals) : Globals := es.foldl (fun g e => e.action g) g

/-! ## What is read is the text of blocks -/

theorem EntryKind.ofKeyword_eq_some_iff {tok : Token} {kind : EntryKind} :
    EntryKind.ofKeyword tok = some kind ↔ tok = kind.keyword := by
  constructor
  · intro h
    cases tok <;> cases h <;> rfl
  · rintro rfl
    cases kind <;> rfl

theorem Item.ofKeyword_eq_some_iff {tok : Token} {item : Item} :
    Item.ofKeyword tok = some item ↔ tok = item.keyword := by
  constructor
  · intro h
    cases tok <;> cases h <;> rfl
  · rintro rfl
    cases item <;> rfl

theorem Assignment.ofValue_eq_some_iff {item : Item} {tok : Token} {a : Assignment} :
    Assignment.ofValue item tok = some a ↔ a.item = item ∧ tok = a.value := by
  constructor
  · intro h
    cases item <;> cases tok <;> cases h <;> exact ⟨rfl, rfl⟩
  · rintro ⟨rfl, rfl⟩
    cases a <;> rfl

section

variable {g : Globals} {tok : Token} {kind : EntryKind} {item : Item} {a : Assignment} {p : Parser}

theorem Parser.step_conf_iff : Parser.step ⟨.conf, g⟩ tok = .ok p ↔
    ∃ kind : EntryKind, tok = kind.keyword ∧ p = ⟨.brace kind, kind.action g⟩ := by
  simp only [← EntryKind.ofKeyword_eq_some_iff, step]
  cases EntryKind.ofKeyword tok <;> simp [eq_comm]

theorem Parser.step_brace_iff : Parser.step ⟨.brace kind, g⟩ tok = .ok p ↔
    tok = .char '{' ∧ p = ⟨.items kind, g⟩ := by
  by_cases h : tok = .char '{' <;> simp [step, h, eq_comm]

theorem Parser.step_items_iff : Parser.step ⟨.items kind, g⟩ tok = .ok p ↔
    (tok = .char '}' ∧ p = ⟨.conf, g⟩) ∨
      ∃ item : Item, item.kind = kind ∧ tok = item.keyword ∧ p = ⟨.equals item, g⟩ := by
  simp only [← Item.ofKeyword_eq_some_iff, step]
  by_cases h : tok = .char '}'
  · simp [h, Item.ofKeyword, eq_comm]
  · rw [if_neg h]
    cases hitem : Item.ofKeyword tok with
    | none => simp [h]
    | some item =>
      by_cases hkind : item.kind = kind
      · simp [h, hkind, @eq_comm _ p]
      · simp [h, hkind]

theorem Parser.step_equals_iff : Parser.step ⟨.equals item, g⟩ tok = .ok p ↔
    tok = .char '=' ∧ p = ⟨.value item, g⟩ := by
  by_cases h : tok = .char '=' <;> simp [step, h, eq_comm]

theorem Parser.step_value_iff : Parser.step ⟨.value item, g⟩ tok = .ok p ↔
    ∃ a : Assignment, a.item = item ∧ tok = a.value ∧ p = ⟨.semicolon a, g⟩ := by
  simp only [← and_assoc, ← Assignment.ofValue_eq_some_iff, step]
  cases Assignment.ofValue item tok <;> simp [eq_comm]

theorem Parser.step_semicolon_iff : Parser.step ⟨.semicolon a, g⟩ tok = .ok p ↔
    tok = .char ';' ∧ p = ⟨.items a.item.kind, a.action g⟩ := by
  by_cases h : tok = .char ';' <;> simp [step, h, eq_comm]

end

/-- Inside a block of a kind: blocks have been read, and assignments of the kind. -/
def InBlock (g₀ : Globals) (kind : EntryKind) (toks : List Token) (g : Globals) : Prop :=
  ∃ (es : List Entry) (items : List Assignment), (∀ a ∈ items, a.item.kind = kind) ∧
    toks = fileText es ++ [kind.keyword, .char '{'] ++ items.flatMap Assignment.tokens ∧
    g = items.foldl (fun g a => a.action g) (kind.action (fileAction es g₀))

/-- What has been read, by the state of the parser. -/
def Parser.Read (g₀ : Globals) (toks : List Token) (p : Parser) : Prop :=
  match p.state with
  | .conf => ∃ es, toks = fileText es ∧ p.globals = fileAction es g₀
  | .brace kind => ∃ es, toks = fileText es ++ [kind.keyword] ∧
      p.globals = kind.action (fileAction es g₀)
  | .items kind => InBlock g₀ kind toks p.globals
  | .equals item => ∃ toks', toks = toks' ++ [item.keyword] ∧
      InBlock g₀ item.kind toks' p.globals
  | .value item => ∃ toks', toks = toks' ++ [item.keyword, .char '='] ∧
      InBlock g₀ item.kind toks' p.globals
  | .semicolon a => ∃ toks', toks = toks' ++ [a.item.keyword, .char '=', a.value] ∧
      InBlock g₀ a.item.kind toks' p.globals

theorem fileText_append (es es' : List Entry) :
    fileText (es ++ es') = fileText es ++ fileText es' := List.flatMap_append

theorem fileAction_append (es es' : List Entry) (g : Globals) :
    fileAction (es ++ es') g = fileAction es' (fileAction es g) := List.foldl_append

theorem fileText_concat (es : List Entry) (e : Entry) :
    fileText (es ++ [e]) = fileText es ++ e.tokens := by
  rw [fileText_append, fileText, fileText, List.flatMap_singleton]

theorem fileAction_concat (es : List Entry) (e : Entry) (g : Globals) :
    fileAction (es ++ [e]) g = e.action (fileAction es g) := by
  rw [fileAction_append]
  rfl

/-- A token more is read. -/
theorem Parser.read_step {g₀ : Globals} {toks : List Token} {p p' : Parser} {tok : Token}
    (h : p.Read g₀ toks) (hstep : p.step tok = .ok p') : p'.Read g₀ (toks ++ [tok]) := by
  obtain ⟨state, g⟩ := p
  cases state with
  | conf =>
    obtain ⟨kind, rfl, rfl⟩ := step_conf_iff.1 hstep
    obtain ⟨es, rfl, hg⟩ := h
    exact ⟨es, rfl, congrArg _ hg⟩
  | brace kind =>
    obtain ⟨rfl, rfl⟩ := step_brace_iff.1 hstep
    obtain ⟨es, rfl, hg⟩ := h
    exact ⟨es, [], by simp, by simp, hg⟩
  | items kind =>
    obtain ⟨rfl, rfl⟩ | ⟨item, rfl, rfl, rfl⟩ := step_items_iff.1 hstep
    · -- The block is complete.
      obtain ⟨es, items, hkind, rfl, hg⟩ := h
      refine ⟨es ++ [⟨kind, items, hkind⟩], ?_, ?_⟩
      · simp [fileText_concat, Entry.tokens]
      · rw [fileAction_concat]
        exact hg
    · exact ⟨toks, rfl, h⟩
  | equals item =>
    obtain ⟨rfl, rfl⟩ := step_equals_iff.1 hstep
    obtain ⟨toks', rfl, h⟩ := h
    exact ⟨toks', by simp, h⟩
  | value item =>
    obtain ⟨a, rfl, rfl, rfl⟩ := step_value_iff.1 hstep
    obtain ⟨toks', rfl, h⟩ := h
    exact ⟨toks', by simp, h⟩
  | semicolon a =>
    -- The assignment is one more item of the block.
    obtain ⟨rfl, rfl⟩ := step_semicolon_iff.1 hstep
    obtain ⟨toks', rfl, es, items, hkind, rfl, hg⟩ := h
    refine ⟨es, items ++ [a], ?_, ?_, ?_⟩
    · intro a' ha'
      rcases List.mem_append.1 ha' with ha' | ha'
      · exact hkind a' ha'
      · rw [List.mem_singleton.1 ha']
    · simp [Assignment.tokens]
    · rw [List.foldl_concat]
      exact congrArg a.action hg

/-! ## The text of blocks is read -/

/-- The assignments of a block are read, and done. -/
theorem Parser.run_items {kind : EntryKind} {items : List Assignment}
    (hkind : ∀ a ∈ items, a.item.kind = kind) (g : Globals) :
    Lib.run step ⟨.items kind, g⟩ (items.flatMap Assignment.tokens) =
      .ok ⟨.items kind, items.foldl (fun g a => a.action g) g⟩ := by
  induction items generalizing g with
  | nil => rfl
  | cons a items ih =>
    have hitem : step ⟨.items kind, g⟩ a.item.keyword = .ok ⟨.equals a.item, g⟩ :=
      step_items_iff.2 (.inr ⟨a.item, hkind a List.mem_cons_self, rfl, rfl⟩)
    have hvalue : step ⟨.value a.item, g⟩ a.value = .ok ⟨.semicolon a, g⟩ :=
      step_value_iff.2 ⟨a, rfl, rfl, rfl⟩
    have hdone : step ⟨.semicolon a, g⟩ (.char ';') = .ok ⟨.items kind, a.action g⟩ :=
      step_semicolon_iff.2 ⟨rfl, by rw [hkind a List.mem_cons_self]⟩
    rw [List.flatMap_cons, Assignment.tokens, List.cons_append, Lib.run_cons_ok hitem,
      List.cons_append, Lib.run_cons_ok (step_equals_iff.2 ⟨rfl, rfl⟩), List.cons_append,
      Lib.run_cons_ok hvalue, List.cons_append, Lib.run_cons_ok hdone, List.nil_append,
      ih (fun a ha => hkind a (List.mem_cons_of_mem _ ha)), List.foldl_cons]

/-- A block is read, and done. -/
theorem Parser.run_entry (e : Entry) (g : Globals) :
    Lib.run step ⟨.conf, g⟩ e.tokens = .ok ⟨.conf, e.action g⟩ := by
  rw [Entry.tokens, List.append_assoc, List.cons_append,
    Lib.run_cons_ok (step_conf_iff.2 ⟨e.kind, rfl, rfl⟩), List.cons_append,
    Lib.run_cons_ok (step_brace_iff.2 ⟨rfl, rfl⟩), List.nil_append,
    Lib.run_append (run_items e.kind_eq _), Lib.run_cons_ok (step_items_iff.2 (.inl ⟨rfl, rfl⟩))]
  rfl

/-- A list of blocks is read, and done block after block. -/
theorem Parser.run_fileText (es : List Entry) (g : Globals) :
    Lib.run step ⟨.conf, g⟩ (fileText es) = .ok ⟨.conf, fileAction es g⟩ := by
  induction es generalizing g with
  | nil => rfl
  | cons e es ih =>
    rw [fileText, List.flatMap_cons, Lib.run_append (run_entry e g)]
    exact ih _

/-- The parser accepts the texts of lists of blocks, and does what the blocks say. -/
theorem yyparse_iff {toks : List Token} {g g' : Globals} :
    yyparse toks g = .ok g' ↔ ∃ es, toks = fileText es ∧ g' = fileAction es g := by
  constructor
  · intro h
    cases hrun : Lib.run Parser.step ⟨.conf, g⟩ toks with
    | error e =>
      rw [yyparse, hrun] at h
      cases h
    | ok p =>
      rw [yyparse, hrun] at h
      have hread : p.Read g toks :=
        Lib.run_history (fun toks p => p.Read g toks) ⟨[], rfl, rfl⟩
          (fun _ _ _ _ => Parser.read_step) hrun
      obtain ⟨state, globals⟩ := p
      cases state with
      | conf =>
        cases h
        exact hread
      | _ => cases h
  · rintro ⟨es, rfl, rfl⟩
    rw [yyparse, Parser.run_fileText]
    rfl

end Nbstftp
