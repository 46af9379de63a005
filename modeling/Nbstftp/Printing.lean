import Nbstftp.Acceptance
import Nbstftp.Decimal
import Nbstftp.Position
import Nbstftp.Rehash

/-!
# Configurations written down

A configuration is written down as a `server` block with all of its settings, in front of
its `listen` and `module` blocks (`Settings.entries`), in the words and the values of the
manual (`Settings.text`). Reading such a text gives the configuration back, whatever was in
use before (`parseConfig_text`).

What can be written down is bounded by the language: a string holds neither quotes nor
newlines nor zeros, a number is an `int`, a boolean one of two (`Settings.Writable`). There
is no other way to a configuration, i.e., those that any file can make of a fresh start are
the ones that can be written down, and no more (`makes_iff`).

On `SIGHUP` the server gets fewer of them: no file brings blocks into the configuration in
use, so that just those without blocks can be loaded (`reloads_iff`).

The texts are ones that fit the buffer of the scanner, into which its strings point.
-/

namespace Nbstftp

/-- A string that can stand between quotes, and has no end in between. -/
def Quotable (s : Bytes) : Prop := ∀ b ∈ s, b ≠ 0 ∧ b ≠ 34 ∧ b ≠ 10

/-- An `int` of the target. -/
def IsInt (n : Int) : Prop := -2147483648 ≤ n ∧ n < 2147483648

/-- The values the scanner can return. -/
def Token.Scanned : Token → Prop
  | .STR s => Quotable s
  | .CINT n => IsInt n
  | _ => True

def ListenSettings.strings (b : ListenSettings) : List Bytes := b.bindaddr.toList

def ModuleSettings.strings (m : ModuleSettings) : List Bytes := m.name.toList ++ m.path.toList

/-- The strings of a configuration, but for its blocks. -/
def Settings.strings {L M : Type} (s : Settings L M) : List Bytes :=
  s.directory.toList ++ s.user.toList ++ s.group.toList ++ s.pidfile.toList ++
    s.modsearchpath.toList

/-- What any blocks can say. A configuration that no server block made has no directory. -/
structure Settings.Sayable (s : FileSettings) : Prop where
  strings : ∀ v ∈ s.strings, Quotable v
  daemonize : s.daemonize = 0 ∨ s.daemonize = 1 ∨ s.daemonize = -1 ∧ s.directory = none
  fixpath : s.fixpath = 0 ∨ s.fixpath = 1
  readtimeout : IsInt s.readtimeout
  bindaddrs : ∀ b ∈ s.listens, ∀ v ∈ b.strings, Quotable v
  ports : ∀ b ∈ s.listens, -32768 ≤ b.port ∧ b.port < 32768
  modules : ∀ m ∈ s.modules, ∀ v ∈ m.strings, Quotable v

/-- What can be written down: that, of a configuration that is complete. -/
structure Settings.Writable (s : FileSettings) : Prop extends s.Sayable where
  directory : s.directory.isSome
  pidfile : s.pidfile.isSome
  corrected : 2 ≤ s.readtimeout

/-! ## Writing -/

/-- A token, as it is written. -/
def Token.piece : Token → Piece
  | .STR s => .str s 34
  | .CINT n => .int (.ofNat n.toNat)
  | .char c => .char c.toNat.toUInt8
  | tok => .word (tok.spellings.head?.getD []) tok

/-- An item that need not be there. -/
def optional (item : Bytes → Assignment) (v : Option Bytes) : List Assignment :=
  (v.map item).toList

/-- The `server` block. -/
def Settings.serverEntry (s : FileSettings) : Entry where
  kind := .server
  items := optional .directory s.directory ++ optional .user s.user ++
    optional .group s.group ++ optional .pidfile s.pidfile ++
    optional .moduleSearchPath s.modsearchpath ++
    [.daemonize (s.daemonize = 1), .fixpath (s.fixpath = 1), .readtimeout s.readtimeout]
  kind_eq := by simp [optional, or_imp, forall_and, Assignment.item, Item.kind]

/-- A `listen` block. The port `-1` says that there is none, any other is unsigned. -/
def ListenSettings.entry (b : ListenSettings) : Entry where
  kind := .listen
  items := optional .bind b.bindaddr ++
    if b.port = -1 then [] else [.port (b.port % UInt16.size)]
  kind_eq := by split <;> simp [optional, or_imp, forall_and, Assignment.item, Item.kind]

/-- A `module` block. -/
def ModuleSettings.entry (m : ModuleSettings) : Entry where
  kind := .module
  items := optional .name m.name ++ optional .path m.path
  kind_eq := by simp [optional, or_imp, forall_and, Assignment.item, Item.kind]

def Settings.entries (s : FileSettings) : List Entry :=
  s.serverEntry :: (s.listens.map ListenSettings.entry ++ s.modules.map ModuleSettings.entry)

/-- A configuration, written down. -/
def Settings.text (s : FileSettings) : Bytes :=
  (fileText s.entries).flatMap fun tok => tok.piece.text

/-! ## The scanner reads what is written -/

/-- A token that can be written. -/
def Token.Spelled : Token → Prop
  | .STR s => Quotable s
  | .CINT n => 0 ≤ n ∧ n < 2147483648
  | .char c => c = '{' ∨ c = '}' ∨ c = '=' ∨ c = ';'
  | _ => True

/-- A check of one byte after the other. -/
theorem quotable_iff_all {s : Bytes} :
    Quotable s ↔ s.all (fun b => b != 0 && b != 34 && b != 10) = true := by
  simp [Quotable, and_assoc]

theorem Quotable.takeWhile {s : Bytes} (h : Quotable s) : s.takeWhile (· != 0) = s :=
  List.takeWhile_eq_self_iff.2 fun b hb => by simpa using (h b hb).1

theorem Token.Spelled.meaning {tok : Token} (h : tok.Spelled) : tok.piece.meaning = some tok := by
  cases tok with
  | STR s => rw [piece, Piece.meaning, Quotable.takeWhile h]
  | CINT n =>
    obtain ⟨hlo, hhi⟩ := h
    have hn : atoi (Literal.ofNat n.toNat).digits = (n.toNat : Int) := atoi_decimal (by omega)
    rw [piece, Piece.meaning, hn, Int.toNat_of_nonneg hlo]
  | char c => rcases h with rfl | rfl | rfl | rfl <;> rfl
  | _ => rfl

theorem Token.Spelled.wellFormed {tok : Token} (h : tok.Spelled) : tok.piece.WellFormed := by
  cases tok with
  | STR s => exact ⟨fun b hb => (h b hb).2, .inl rfl⟩
  | CINT n => trivial
  | char c => rcases h with rfl | rfl | rfl | rfl <;> exact ⟨by decide, by decide⟩
  | BOOL b => cases b <;> exact List.mem_cons_self
  | _ => exact List.mem_cons_self

/-- No boolean is written as a digit, and the characters are those of a file. -/
theorem Token.Spelled.char {tok : Token} (h : tok.Spelled) {b : UInt8} (hb : .char b = tok.piece) :
    b ∈ ascii "\x7b\x7d=;" := by
  cases tok with
  | char c =>
    cases hb
    rcases h with rfl | rfl | rfl | rfl <;> decide
  | _ => cases hb

theorem Token.piece_token (tok : Token) : tok.piece.token = tok.piece.meaning := by
  cases tok <;> rfl

/-- The tokens of blocks can be written if the values can. -/
theorem spelled_fileText {es : List Entry} (h : ∀ e ∈ es, ∀ a ∈ e.items, a.value.Spelled) :
    ∀ tok ∈ fileText es, tok.Spelled := by
  intro tok htok
  obtain ⟨e, he, htok⟩ := List.mem_flatMap.1 htok
  have hkind : e.kind.keyword.Spelled := by cases e.kind <;> trivial
  simp only [Entry.tokens, List.mem_append, List.mem_cons, List.not_mem_nil, or_false,
    List.mem_flatMap] at htok
  rcases htok with ((rfl | rfl) | ⟨a, ha, htok⟩) | rfl
  · exact hkind
  · exact .inl rfl
  · have hitem : a.item.keyword.Spelled := by cases a <;> trivial
    simp only [Assignment.tokens, List.mem_cons, List.not_mem_nil, or_false] at htok
    rcases htok with rfl | rfl | rfl | rfl
    · exact hitem
    · exact .inr (.inr (.inl rfl))
    · exact h e he a ha
    · exact .inr (.inr (.inr rfl))
  · exact .inr (.inl rfl)

/-- The text of blocks is read back as their tokens. -/
theorem tokens_text {es : List Entry} (h : ∀ e ∈ es, ∀ a ∈ e.items, a.value.Spelled) :
    tokens .INITIAL ((fileText es).flatMap fun tok => tok.piece.text) = fileText es := by
  have hspelled := spelled_fileText h
  have hmeaning : ((fileText es).map Token.piece).filterMap Piece.meaning = fileText es := by
    rw [List.filterMap_map]
    exact (List.filterMap_congr fun tok htok => (hspelled tok htok).meaning).trans
      List.filterMap_some
  have htoken : ((fileText es).map Token.piece).filterMap Piece.token = fileText es := by
    refine Eq.trans ?_ hmeaning
    rw [List.filterMap_map, List.filterMap_map]
    exact congrArg (List.filterMap · _) (funext Token.piece_token)
  obtain ⟨ms, hreads, hms⟩ : ∃ ms, scanner.Reads .INITIAL
      (((fileText es).map Token.piece).flatMap Piece.text ++ []) ms .INITIAL [] ∧
        MatchesOf ((fileText es).map Token.piece) ms := reads_pieces
    (fun p hp => by
      obtain ⟨tok, htok, rfl⟩ := List.mem_map.1 hp
      exact (hspelled tok htok).wellFormed)
    (fun b hb => by
      obtain ⟨tok, htok, heq⟩ := List.mem_map.1 hb
      exact (hspelled tok htok).char heq.symm)
    (fun b hb => by cases hb) (by rw [hmeaning]; exact spaced_fileText es)
  rw [List.append_nil, List.flatMap_map] at hreads
  rw [tokens_of_reads hreads, hms.tokens, htoken, tokens, lex_nil]
  exact List.append_nil _

/-! ## Reading a configuration back -/

theorem Settings.assign_bools (s : FileSettings) (d f : Bool) (n : Int) :
    [Assignment.daemonize d, .fixpath f, .readtimeout n].foldl Settings.assign s =
      { s with daemonize := d.toInt, fixpath := f.toInt, readtimeout := n } := rfl

/-- An item that is written once, or left out, says what is to be said. -/
theorem foldl_optional {α : Type} (assign : α → Assignment → α) (item : Bytes → Assignment)
    (set : α → Option Bytes → α) (v : Option Bytes) (x : α)
    (hnone : set x none = x) (hsome : ∀ w, set x (some w) = assign x (item w)) :
    (optional item v).foldl assign x = set x v := by
  cases v with
  | none => exact hnone.symm
  | some w => exact (hsome w).symm

theorem toInt_decide {n : Int} (h : n = 0 ∨ n = 1) : (decide (n = 1)).toInt = n := by
  rcases h with rfl | rfl <;> rfl

theorem Settings.server_serverEntry {s : FileSettings} (hd : s.daemonize = 0 ∨ s.daemonize = 1)
    (hf : s.fixpath = 0 ∨ s.fixpath = 1) :
    s.serverEntry.server = { s with listens := [], modules := [] } := by
  rw [Entry.server, serverEntry]
  dsimp only
  simp only [List.foldl_append]
  rw [foldl_optional assign .directory fun s v => { s with directory := v },
    foldl_optional assign .user fun s v => { s with user := v },
    foldl_optional assign .group fun s v => { s with group := v },
    foldl_optional assign .pidfile fun s v => { s with pidfile := v },
    foldl_optional assign .moduleSearchPath fun s v => { s with modsearchpath := v },
    Settings.assign_bools, toInt_decide hd, toInt_decide hf]
  -- Before it is written, each of them has the default.
  all_goals intros; rfl

theorem ListenSettings.listen_entry {b : ListenSettings}
    (h : -32768 ≤ b.port ∧ b.port < 32768) : b.entry.listen = b := by
  have hport : (b.port % UInt16.size).bmod UInt16.size = b.port := by
    have hsize : ((UInt16.size : ℕ) : Int) = 65536 := rfl
    rw [Int.emod_bmod, Int.bmod_eq_of_le] <;> omega
  rw [Entry.listen, entry]
  dsimp only
  rw [List.foldl_append, foldl_optional assign .bind fun s v => { s with bindaddr := v }]
  · split
    · next hnone =>
      rw [List.foldl_nil]
      exact congrArg (ListenSettings.mk b.bindaddr) hnone.symm
    · rw [List.foldl_cons, List.foldl_nil, assign, hport]
  all_goals intros; rfl

theorem ModuleSettings.module_entry (m : ModuleSettings) : m.entry.module = m := by
  rw [Entry.module, entry]
  dsimp only
  rw [List.foldl_append, foldl_optional assign .name fun s v => { s with name := v },
    foldl_optional assign .path fun s v => { s with path := v }]
  all_goals intros; rfl

/-- The blocks of a configuration, as they are read. -/
theorem blocks_entries {s : FileSettings} (h : ∀ b ∈ s.listens, -32768 ≤ b.port ∧ b.port < 32768) :
    listenBlocks (s.listens.map ListenSettings.entry ++ s.modules.map ModuleSettings.entry) =
        s.listens ∧
      moduleBlocks (s.listens.map ListenSettings.entry ++ s.modules.map ModuleSettings.entry) =
        s.modules := by
  have hlistens : (s.listens.map ListenSettings.entry).map Entry.listen = s.listens := by
    rw [List.map_map]
    exact (List.map_congr_left fun b hb => ListenSettings.listen_entry (h b hb)).trans
      (List.map_id' _)
  have hmodules : (s.modules.map ModuleSettings.entry).map Entry.module = s.modules := by
    rw [List.map_map]
    exact (List.map_congr_left fun m _ => m.module_entry).trans (List.map_id' _)
  constructor
  · rw [listenBlocks, List.filter_append, List.filter_eq_self.2, List.filter_eq_nil_iff.2,
      List.append_nil, hlistens] <;> simp [ListenSettings.entry, ModuleSettings.entry]
  · rw [moduleBlocks, List.filter_append, List.filter_eq_nil_iff.2, List.filter_eq_self.2,
      List.nil_append, hmodules] <;> simp [ListenSettings.entry, ModuleSettings.entry]

namespace Settings.Writable

variable {s : FileSettings} (h : s.Writable)

include h

theorem daemonize_eq : s.daemonize = 0 ∨ s.daemonize = 1 := by
  rcases h.daemonize with hd | hd | ⟨-, hnone⟩
  · exact .inl hd
  · exact .inr hd
  · have hdirectory := h.directory
    rw [hnone] at hdirectory
    cases hdirectory

/-- What is written says what is to be said, and replaces all there was. -/
theorem fileApply_entries (s₀ : Option FileSettings) : fileApply s.entries s₀ = some s := by
  have hserver := Settings.server_serverEntry h.daemonize_eq h.fixpath
  obtain ⟨hlistens, hmodules⟩ := blocks_entries h.ports
  refine (fileApply_server [] rfl (fun e he => ?_) s₀).trans ?_
  · rcases List.mem_append.1 he with he | he
    · obtain ⟨b, -, rfl⟩ := List.mem_map.1 he
      exact nofun
    · obtain ⟨m, -, rfl⟩ := List.mem_map.1 he
      exact nofun
  · rw [whole, hserver, hlistens, hmodules]

/-- It is complete as it is. -/
theorem completed_eq : s.completed = s := by
  obtain ⟨pidfile, hpidfile⟩ := Option.isSome_iff_exists.1 h.pidfile
  have hcorrected : ¬s.readtimeout < 2 := Int.not_lt.2 h.corrected
  rw [Settings.completed, if_neg hcorrected, hpidfile, Option.getD_some, ← hpidfile]

theorem spelled_entries : ∀ e ∈ s.entries, ∀ a ∈ e.items, a.value.Spelled := by
  intro e he
  rcases List.mem_cons.1 he with rfl | he
  · have hstrings := h.strings
    simp only [Settings.strings, List.mem_append, Option.mem_toList, or_imp, forall_and]
      at hstrings
    have hint := h.readtimeout
    have hcorrected := h.corrected
    simp only [Settings.serverEntry, optional, List.mem_append, Option.mem_toList,
      Option.map_eq_some_iff, List.mem_cons, List.not_mem_nil, or_false]
    obtain ⟨⟨⟨⟨hdirectory, huser⟩, hgroup⟩, hpidfile⟩, hpath⟩ := hstrings
    rintro _ (((((⟨v, hv, rfl⟩ | ⟨v, hv, rfl⟩) | ⟨v, hv, rfl⟩) | ⟨v, hv, rfl⟩) | ⟨v, hv, rfl⟩) |
      rfl | rfl | rfl)
    · exact hdirectory v hv
    · exact huser v hv
    · exact hgroup v hv
    · exact hpidfile v hv
    · exact hpath v hv
    · trivial
    · trivial
    · exact ⟨by omega, hint.2⟩
  rcases List.mem_append.1 he with he | he
  · obtain ⟨b, hb, rfl⟩ := List.mem_map.1 he
    intro a ha
    rcases List.mem_append.1 ha with ha | ha
    · obtain ⟨v, hv, rfl⟩ := Option.map_eq_some_iff.1 (Option.mem_toList.1 ha)
      exact h.bindaddrs b hb v (Option.mem_toList.2 hv)
    · split at ha
      · cases ha
      · cases List.mem_singleton.1 ha
        exact ⟨Int.emod_nonneg _ (by decide),
          Int.lt_of_lt_of_le (Int.emod_lt_of_pos _ (by decide)) (by decide)⟩
  · obtain ⟨m, hm, rfl⟩ := List.mem_map.1 he
    intro a ha
    rcases List.mem_append.1 ha with ha | ha
    · obtain ⟨v, hv, rfl⟩ := Option.map_eq_some_iff.1 (Option.mem_toList.1 ha)
      exact h.modules m hm v (List.mem_append_left _ (Option.mem_toList.2 hv))
    · obtain ⟨v, hv, rfl⟩ := Option.map_eq_some_iff.1 (Option.mem_toList.1 ha)
      exact h.modules m hm v (List.mem_append_right _ (Option.mem_toList.2 hv))

end Settings.Writable

/-- A configuration that is written down is read back, whatever was in use. -/
theorem parseConfig_text {s : FileSettings} (h : s.Writable) {g : Globals} (hg : g.Below) :
    ∃ g', parseConfig (some (tokens .INITIAL s.text)) g = .ok (0, g') ∧ g'.settings = some s := by
  have hsettings : (fileAction s.entries g).settings = some s :=
    (settings_fileAction s.entries hg).1.trans (h.fileApply_entries g.settings)
  obtain ⟨p, hp, hsay⟩ := Option.map_eq_some_iff.1 hsettings
  have hdirectory : ((fileAction s.entries g).configs p).directory ≠ none := by
    intro hnone
    have hsome := h.directory
    rw [← hsay, Globals.settingsOf, Settings.mapBlocks, Configuration.settings, hnone] at hsome
    cases hsome
  refine ⟨(fileAction s.entries g).setConfig Configuration.completed, ?_, ?_⟩
  · rw [Settings.text, tokens_text h.spelled_entries]
    exact parseConfig_fileText_ok_iff.2 ⟨p, hp, hdirectory, rfl⟩
  · obtain ⟨-, -, -, -, -, hcompleted⟩ := setConfig_completed hp
    rw [hcompleted, hsettings, Option.map_some, h.completed_eq]

/-- Settings without blocks. -/
def Sample.plain : FileSettings :=
  ⟨some (ascii "/srv"), none, none, some (ascii "/pid"), none, 0, 1, 9, [], []⟩

example : Sample.plain.text = ascii ("server\x7bdirectory=\"/srv\";pidfile=\"/pid\";" ++
    "daemonize=false;fixpath=true;readtimeout=9;\x7d") := by
  decide +kernel

/-! ## What files can make -/

theorem quotable_takeWhile {s : Bytes} (h : ∀ b ∈ s, b ≠ 34 ∧ b ≠ 10) :
    Quotable (s.takeWhile (· != 0)) := fun b hb =>
  ⟨by simpa using List.mem_takeWhile_imp hb, h b ((List.takeWhile_sublist _).subset hb)⟩

theorem isInt_atoi (s : Bytes) : IsInt (atoi s) := by
  have hsize : UInt32.size = 4294967296 := rfl
  rw [atoi, hsize, IsInt]
  have hlo := Int.le_bmod (x := (strtol s).1) (m := 4294967296) (by decide)
  have hhi := Int.bmod_lt (x := (strtol s).1) (m := 4294967296) (by decide)
  omega

/-- Every token of a text is one the scanner can return. -/
theorem scanned_tokens (text : Bytes) : ∀ tok ∈ tokens .INITIAL text, tok.Scanned := by
  intro tok htok
  obtain ⟨pieces, tail, hsplit⟩ := exists_split text
  rw [hsplit.tokens_eq] at htok
  obtain ⟨p, hp, htok⟩ := List.mem_filterMap.1 htok
  have hwf := hsplit.wellFormed p hp
  cases p with
  | blank b => cases htok
  | line body => cases htok
  | comment body => cases htok
  | digit b => exact absurd hp (hsplit.digit b)
  | char b =>
    cases htok
    trivial
  | int s =>
    cases htok
    exact isInt_atoi s.digits
  | str body close =>
    cases htok
    exact quotable_takeWhile hwf.1
  | word w tok' =>
    -- No spelling is that of a value, but for the booleans.
    cases htok
    cases tok with
    | STR s => cases hwf
    | CINT n => cases hwf
    | _ => trivial

/-- So are the values of its blocks. -/
theorem scanned_value {text : Bytes} {es : List Entry} (h : tokens .INITIAL text = fileText es) :
    ∀ e ∈ es, ∀ a ∈ e.items, a.value.Scanned := by
  intro e he a ha
  refine scanned_tokens text _ (h ▸ List.mem_flatMap.2 ⟨e, he, ?_⟩)
  refine List.mem_append_left _ (List.mem_append_right _ (List.mem_flatMap.2 ⟨a, ha, ?_⟩))
  simp [Assignment.tokens]

/-- An item brings at most its own string. -/
theorem Settings.strings_assign (s : FileSettings) (a : Assignment) :
    ∀ v ∈ (s.assign a).strings, v ∈ s.strings ∨ a.value = .STR v := by
  intro v hv
  simp only [Settings.strings, List.mem_append, Option.mem_toList] at hv ⊢
  cases a with
  | directory w | user w | group w | pidfile w | moduleSearchPath w =>
    simp only [Settings.assign, Option.some.injEq] at hv
    simp only [Assignment.value, Token.STR.injEq]
    tauto
  | _ => exact .inl hv

theorem ListenSettings.strings_assign (b : ListenSettings) (a : Assignment) :
    ∀ v ∈ (b.assign a).strings, v ∈ b.strings ∨ a.value = .STR v := by
  intro v hv
  cases a with
  | bind w => exact .inr (congrArg Token.STR (List.mem_singleton.1 hv).symm)
  | _ => exact .inl hv

theorem ModuleSettings.strings_assign (m : ModuleSettings) (a : Assignment) :
    ∀ v ∈ (m.assign a).strings, v ∈ m.strings ∨ a.value = .STR v := by
  intro v hv
  simp only [ModuleSettings.strings, List.mem_append, Option.mem_toList] at hv ⊢
  cases a with
  | path w | name w =>
    simp only [ModuleSettings.assign, Option.some.injEq] at hv
    simp only [Assignment.value, Token.STR.injEq]
    tauto
  | _ => exact .inl hv

/-- So the items of a block bring no strings but their own. -/
theorem foldl_quotable {α : Type} {assign : α → Assignment → α} {strings : α → List Bytes}
    (hassign : ∀ x a, ∀ v ∈ strings (assign x a), v ∈ strings x ∨ a.value = .STR v)
    {items : List Assignment} (hitems : ∀ a ∈ items, a.value.Scanned) {x : α}
    (hx : ∀ v ∈ strings x, Quotable v) : ∀ v ∈ strings (items.foldl assign x), Quotable v := by
  induction items generalizing x with
  | nil => exact hx
  | cons a items ih =>
    refine ih (fun b hb => hitems b (List.mem_cons_of_mem _ hb)) fun v hv => ?_
    rcases hassign x a v hv with hv | hv
    · exact hx v hv
    · have ha := hitems a List.mem_cons_self
      rwa [hv] at ha

/-- The numbers of a server block. -/
structure Settings.Numbers (s : FileSettings) : Prop where
  daemonize : s.daemonize = 0 ∨ s.daemonize = 1
  fixpath : s.fixpath = 0 ∨ s.fixpath = 1
  readtimeout : IsInt s.readtimeout

theorem Settings.numbers_foldl {items : List Assignment}
    (hitems : ∀ a ∈ items, a.value.Scanned) {s : FileSettings} (hs : s.Numbers) :
    (items.foldl Settings.assign s).Numbers := by
  have hbool : ∀ b : Bool, b.toInt = 0 ∨ b.toInt = 1 := fun b => by cases b <;> decide
  induction items generalizing s with
  | nil => exact hs
  | cons a items ih =>
    refine ih (fun b hb => hitems b (List.mem_cons_of_mem _ hb)) ?_
    have ha := hitems a List.mem_cons_self
    cases a with
    | daemonize b => exact ⟨hbool b, hs.fixpath, hs.readtimeout⟩
    | fixpath b => exact ⟨hs.daemonize, hbool b, hs.readtimeout⟩
    | readtimeout n => exact ⟨hs.daemonize, hs.fixpath, ha⟩
    | _ => exact ⟨hs.daemonize, hs.fixpath, hs.readtimeout⟩

/-- A port is a `short`. -/
theorem ListenSettings.port_foldl (items : List Assignment) {b : ListenSettings}
    (hb : -32768 ≤ b.port ∧ b.port < 32768) :
    -32768 ≤ (items.foldl ListenSettings.assign b).port ∧
      (items.foldl ListenSettings.assign b).port < 32768 := by
  induction items generalizing b with
  | nil => exact hb
  | cons a items ih =>
    refine ih ?_
    cases a with
    | port n =>
      have hlo := Int.le_bmod (x := n) (m := 65536) (by decide)
      have hhi := Int.bmod_lt (x := n) (m := 65536) (by decide)
      exact ⟨hlo, hhi⟩
    | _ => exact hb

/-- A block says what can be said, on top of what can. -/
theorem Entry.sayable_apply {e : Entry} (he : ∀ a ∈ e.items, a.value.Scanned)
    {s₀ : Option FileSettings} (hs₀ : ∀ s ∈ s₀, s.Sayable) : (e.apply s₀).Sayable := by
  have hs : (s₀.getD (.defaults (-1))).Sayable := by
    cases s₀ with
    | none =>
      exact ⟨List.forall_mem_nil _, .inr (.inr ⟨rfl, rfl⟩), .inr rfl, ⟨by decide, by decide⟩,
        List.forall_mem_nil _, List.forall_mem_nil _, List.forall_mem_nil _⟩
    | some s => exact hs₀ s rfl
  rw [Entry.apply]
  cases e.kind with
  | server =>
    have hnumbers := Settings.numbers_foldl he (s := .defaults 1)
      ⟨.inr rfl, .inr rfl, ⟨by decide, by decide⟩⟩
    obtain ⟨hlistens, hmodules⟩ := Settings.foldl_assign_blocks (.defaults 1 : FileSettings) e.items
    refine ⟨foldl_quotable Settings.strings_assign he (List.forall_mem_nil _),
      hnumbers.daemonize.imp_right .inl, hnumbers.fixpath, hnumbers.readtimeout, ?_, ?_, ?_⟩
    · intro b hb
      rw [Entry.server, hlistens] at hb
      cases hb
    · intro b hb
      rw [Entry.server, hlistens] at hb
      cases hb
    · intro m hm
      rw [Entry.server, hmodules] at hm
      cases hm
  | listen =>
    refine ⟨hs.strings, hs.daemonize, hs.fixpath, hs.readtimeout, ?_, ?_, hs.modules⟩
    · intro b hb
      rcases List.mem_append.1 hb with hb | hb
      · exact hs.bindaddrs b hb
      · rw [List.mem_singleton.1 hb]
        exact foldl_quotable ListenSettings.strings_assign he (List.forall_mem_nil _)
    · intro b hb
      rcases List.mem_append.1 hb with hb | hb
      · exact hs.ports b hb
      · rw [List.mem_singleton.1 hb]
        exact ListenSettings.port_foldl e.items ⟨by decide, by decide⟩
  | module =>
    refine ⟨hs.strings, hs.daemonize, hs.fixpath, hs.readtimeout, hs.bindaddrs, hs.ports, ?_⟩
    intro m hm
    rcases List.mem_append.1 hm with hm | hm
    · exact hs.modules m hm
    · rw [List.mem_singleton.1 hm]
      exact foldl_quotable ModuleSettings.strings_assign he (List.forall_mem_nil _)

theorem sayable_fileApply {es : List Entry} (hes : ∀ e ∈ es, ∀ a ∈ e.items, a.value.Scanned)
    {s₀ : Option FileSettings} (hs₀ : ∀ s ∈ s₀, s.Sayable) : ∀ s ∈ fileApply es s₀, s.Sayable := by
  induction es generalizing s₀ with
  | nil => exact hs₀
  | cons e es ih =>
    refine ih (fun e he => hes e (List.mem_cons_of_mem _ he)) fun s hs => ?_
    cases hs
    exact Entry.sayable_apply (hes e List.mem_cons_self) hs₀

/-- Completing what has a directory makes what can be written down. -/
theorem Settings.Sayable.completed {s : FileSettings} (h : s.Sayable)
    (hdirectory : s.directory.isSome) : s.completed.Writable where
  strings := by
    intro v hv
    have hdefault : Quotable (ascii "/var/run/nbstftp.pid") := quotable_iff_all.2 (by decide)
    have hpidfile : ∀ v ∈ s.pidfile, Quotable v := fun v hv =>
      h.strings v (by simp [Settings.strings, Option.mem_def.1 hv])
    simp only [Settings.strings, Settings.completed, List.mem_append, Option.mem_toList,
      Option.some.injEq] at hv
    rcases hv with (((hv | hv) | hv) | rfl) | hv
    · exact h.strings v (by simp [Settings.strings, hv])
    · exact h.strings v (by simp [Settings.strings, hv])
    · exact h.strings v (by simp [Settings.strings, hv])
    · cases hp : s.pidfile with
      | none => exact hdefault
      | some w => exact hpidfile w hp
    · exact h.strings v (by simp [Settings.strings, hv])
  daemonize := h.daemonize
  fixpath := h.fixpath
  readtimeout := by
    have hint := h.readtimeout
    rw [IsInt] at hint ⊢
    dsimp only [Settings.completed]
    split <;> omega
  bindaddrs := h.bindaddrs
  ports := h.ports
  modules := h.modules
  directory := hdirectory
  pidfile := rfl
  corrected := by
    dsimp only [Settings.completed]
    split <;> omega

/-- The configurations that some file makes of a fresh start are those that can be written
    down. -/
theorem makes_iff (s : FileSettings) :
    (∃ text g, parseConfig (some (tokens .INITIAL text)) .fresh = .ok (0, g) ∧
      g.settings = some s) ↔ s.Writable := by
  constructor
  · rintro ⟨text, g, hparse, hs⟩
    have hout := parseConfig_outcome (some (tokens .INITIAL text)) .fresh
    rw [hparse] at hout
    generalize htokens : tokens .INITIAL text = toks at hout
    cases hout with
    | ok es p hp hdirectory =>
      obtain ⟨-, -, -, -, -, hcompleted⟩ := setConfig_completed hp
      have hsettings := (settings_fileAction es below_fresh).1
      rw [hcompleted] at hs
      obtain ⟨s₀, hs₀, rfl⟩ := Option.map_eq_some_iff.1 hs
      have hsay : s₀.Sayable := sayable_fileApply (scanned_value htokens)
        (fun s hs => by cases hs) s₀ (hsettings ▸ hs₀)
      refine hsay.completed ?_
      rw [Globals.settings, hp] at hs₀
      cases hs₀
      exact (Option.isSome_map ..).trans (Option.isSome_iff_ne_none.2 hdirectory)
  · intro h
    obtain ⟨g, hparse, hg⟩ := parseConfig_text h below_fresh
    exact ⟨s.text, g, hparse, hg⟩

/-! ## What files can make of a configuration in use -/

/-- A rehash of the file whose `ParseConfig` succeeds leaves some settings, in a configuration
    other than the one it released. One that fails for want of a directory is none of these, though
    it may change the settings, too. -/
def Reloads (text : Bytes) (d : Daemon) (s : FileSettings) : Prop :=
  (∃ g₁, parseConfig (some (tokens .INITIAL text)) d.globals = .ok (0, g₁)) ∧
    ∃ d' ∈ (signalHandler (some (tokens .INITIAL text)) .SIGHUP d).toOption,
      d'.globals.settings = some s ∧ d'.globals.config ≠ d.globals.config

/-- Blocks that leave the configuration in use have a server block among them. -/
theorem exists_server {g : Globals} {old p : ℕ} (hold : g.config = some old) {es : List Entry}
    (hp : (fileAction es g).config = some p) (hne : p ≠ old) :
    ∃ es₁ e es₂, es = es₁ ++ e :: es₂ ∧ e.kind = .server := by
  by_contra hnone
  have hes : ∀ e ∈ es, e.kind ≠ .server := fun e he hkind => by
    obtain ⟨es₁, es₂, rfl⟩ := List.append_of_mem he
    exact hnone ⟨es₁, e, es₂, rfl, hkind⟩
  exact hne (Option.some.inj (hp.symm.trans (fileAction_extends es hes hold).config))

/-- From a server block on, nothing depends on what was in use before. -/
theorem fileApply_renewed {es₁ es₂ : List Entry} {e : Entry} (he : e.kind = .server)
    (s₀ : Option FileSettings) :
    fileApply (es₁ ++ e :: es₂) s₀ = fileApply (e :: es₂) none := by
  rw [fileApply, List.foldl_append, List.foldl_cons]
  refine congrArg (fun s => fileApply es₂ (some s)) ?_
  rw [e.apply_server he, e.apply_server he]

/-- The settings a rehash that succeeds can bring into use are those that can be written down
    without a `listen` or `module` block. -/
theorem reloads_iff (d : Daemon) {old : ℕ} (hold : d.globals.config = some old)
    (halloc : d.globals.Allocated) (s : FileSettings) :
    (∃ text, Reloads text d s) ↔ s.Writable ∧ s.listens = [] ∧ s.modules = [] := by
  constructor
  · rintro ⟨text, ⟨g₁, hparse⟩, hrehash⟩
    obtain ⟨g', hrehash, hs, hne⟩ := sighup_iff.1 hrehash
    have hout := parseConfig_outcome (some (tokens .INITIAL text)) d.globals
    rw [hparse] at hout
    generalize htokens : tokens .INITIAL text = toks at hout hrehash
    cases hout with
    | ok es p hp hdirectory =>
      obtain ⟨g'', -, hrehash', hp', -, -, hsettings', -⟩ := rehash_eq hold hp hdirectory
      cases hrehash.symm.trans hrehash'
      have hpold : p ≠ old := fun heq => hne (by
        rw [show d.globals.config = some p from heq ▸ hold]
        exact hp')
      obtain ⟨es₁, e, es₂, rfl, he⟩ := exists_server hold hp hpold
      have hsettings := (settings_fileAction (es₁ ++ e :: es₂) halloc.below).1
      rw [hsettings, fileApply_renewed he] at hsettings'
      rw [hsettings', Option.map_eq_some_iff] at hs
      obtain ⟨s₀, hs₀, rfl⟩ := hs
      have hsay : s₀.Sayable := by
        refine sayable_fileApply (fun e' he' => ?_) (fun s hs => by cases hs) s₀ hs₀
        exact scanned_value htokens e' (List.mem_append_right _ he')
      have hsome : s₀.directory.isSome := by
        rw [fileApply_renewed he, hs₀, Globals.settings, hp] at hsettings
        cases hsettings
        exact (Option.isSome_map ..).trans (Option.isSome_iff_ne_none.2 hdirectory)
      have hwritable := hsay.completed hsome
      -- The blocks are lost, which does no harm to the rest.
      exact ⟨{ hwritable with
        bindaddrs := List.forall_mem_nil _
        ports := List.forall_mem_nil _
        modules := List.forall_mem_nil _ }, rfl, rfl⟩
  · rintro ⟨h, hlistens, hmodules⟩
    have hentries : s.entries = [s.serverEntry] := by
      rw [Settings.entries, hlistens, hmodules]
      rfl
    have hsettings := (settings_fileAction s.entries halloc.below).1.trans
      (h.fileApply_entries d.globals.settings)
    obtain ⟨p, hp, hdirectory⟩ := exists_config hsettings
    have hdirectory' : ((fileAction s.entries d.globals).configs p).directory ≠ none := fun hnone =>
      Option.isSome_iff_ne_none.1 h.directory (hdirectory.1 hnone)
    -- The configuration of the server block is a new one.
    have hpold : p ≠ old := by
      obtain ⟨c, n, haction, -⟩ := action_server s.serverEntry rfl d.globals
      rw [hentries, fileAction, List.foldl_cons, List.foldl_nil, haction] at hp
      cases hp
      exact Nat.ne_of_gt (halloc.lt hold)
    have hread : tokens .INITIAL s.text = fileText s.entries := tokens_text h.spelled_entries
    obtain ⟨g', -, hrehash, hp', -, -, hsettings', -⟩ := rehash_eq hold hp hdirectory'
    refine ⟨s.text, ?_, sighup_iff.2 ⟨g', ?_, ?_, ?_⟩⟩
    · rw [hread]
      exact ⟨_, parseConfig_fileText_ok_iff.2 ⟨p, hp, hdirectory', rfl⟩⟩
    · rwa [hread]
    · rw [hsettings', hsettings, Option.map_some, h.completed_eq]
      exact congrArg some (by rw [← hlistens, ← hmodules])
    · rw [hp', hold]
      exact fun heq => hpold (Option.some.inj heq)

theorem Sample.plain_writable : Sample.plain.Writable where
  strings := by
    have hstrings : Sample.plain.strings = [ascii "/srv", ascii "/pid"] := rfl
    simp only [hstrings, List.mem_cons, List.not_mem_nil, or_false, forall_eq_or_imp, forall_eq,
      quotable_iff_all]
    decide
  daemonize := .inl rfl
  fixpath := .inr rfl
  readtimeout := ⟨by decide, by decide⟩
  bindaddrs := nofun
  ports := nofun
  modules := nofun
  directory := rfl
  pidfile := rfl
  corrected := by decide

theorem reloads_plain : ∃ text, Reloads text Sample.daemon Sample.plain :=
  (reloads_iff Sample.daemon rfl Sample.allocated Sample.plain).2
    ⟨Sample.plain_writable, rfl, rfl⟩

end Nbstftp
