import Nbstftp.Settings

/-!
# Rehashing

On `SIGHUP` the configuration file is read again, on top of the configuration in use. If
that succeeds, the one that was in use before is to be released; but its blocks are taken
from the one in use then, which loses them (`not_rehash_installs`), unless the file ends
with a server block (`rehash_installs_iff`). If it fails, the configuration may have been
replaced or extended, or the process ended (`not_rehash_keeps`), unless nothing was read
(`rehash_keeps_iff`).
-/

namespace Nbstftp

/-- The signals that are handled. -/
inductive Signal
  | SIGHUP | SIGSEGV | SIGTERM | SIGINT | SIGPIPE
  | other (sig : ℕ)
  deriving DecidableEq

/-- What signals change: the globals of the parser, the flag of the idle loop, the count of
    segmentation faults, and the events modules were informed of. -/
structure Daemon where
  globals : Globals
  running : Bool
  cnt : ℕ
  events : List Signal

/-- The configuration file is read again. -/
def rehash (configfile : Option (List Token)) (g : Globals) : Except Exit Globals :=
  let oldconf := g.config
  match parseConfig configfile g with
  | .error e => .error e
  | .ok (ret, g) => if ret = 1 then .ok g else deallocateConfig oldconf g

def signalHandler (configfile : Option (List Token)) (sig : Signal) (d : Daemon) :
    Except Exit Daemon :=
  let handled : Except Exit Daemon := match sig with
    | .SIGHUP => (rehash configfile d.globals).map fun g => { d with globals := g }
    | .SIGSEGV => if d.cnt ≥ 1 then .error .failure else .ok { d with cnt := d.cnt + 1 }
    | .SIGTERM | .SIGINT => .ok { d with running := false }
    | .SIGPIPE | .other _ => .ok d
  handled.map fun d => { d with events := d.events ++ [sig] }

/-- The configuration in use is what a fresh start makes of the file, and what has been
    released were parts of the old one, and are none of it. -/
structure Installed (configfile : Option (List Token)) (old : ℕ) (g g' : Globals) : Prop where
  settings : ∃ g₀, parseConfig configfile .fresh = .ok (0, g₀) ∧ g'.settings = g₀.settings
  released : ∃ freed, g'.released = g.released ++ freed ∧ (∀ x ∈ freed, x ∈ g.parts old) ∧
    ∀ p, g'.config = some p → ∀ x ∈ g'.parts p, x ∉ freed

/-- The configuration in use is the one it was, and so are its fields and blocks. -/
structure Kept (g g' : Globals) : Prop where
  config : g'.config = g.config
  configs : ∀ p, g.config = some p → g'.configs p = g.configs p
  listens : ∀ p, g.config = some p → ∀ b ∈ (g.configs p).listenblocks, g'.listens b = g.listens b
  modules : ∀ p, g.config = some p → ∀ m ∈ (g.configs p).moduleblocks, g'.modules m = g.modules m

/-- Rehashing succeeds, and installs the configuration of the file. -/
def RehashInstalls (configfile : Option (List Token)) (old : ℕ) (d : Daemon) : Prop :=
  ∃ d' ∈ (signalHandler configfile .SIGHUP d).toOption,
    Installed configfile old d.globals d'.globals

/-- Rehashing returns, and changes nothing. -/
def RehashKeeps (configfile : Option (List Token)) (d : Daemon) : Prop :=
  ∃ d' ∈ (signalHandler configfile .SIGHUP d).toOption,
    d'.running = d.running ∧ Kept d.globals d'.globals

/-! ## What the parser leaves alone -/

section

variable {g : Globals} {q : ℕ}

/-- The configuration a block is added to keeps its strings, as do others. -/
theorem Globals.Needs.strings_update {p n : ℕ} {c c' : Configuration} (h : g.Needs p c n)
    (hq : q < g.next) (hstrings : c'.strings = c.strings) :
    (Function.update g.configs p c' q).strings = (g.configs q).strings := by
  by_cases hqp : q = p
  · subst hqp
    rcases h with ⟨-, rfl, -⟩ | ⟨-, hp, -⟩
    · rw [Function.update_self, hstrings]
    · omega
  · rw [Function.update_of_ne hqp]

/-- A block releases nothing, and keeps the strings of the configurations there are. -/
theorem action_frame (e : Entry) (g : Globals) :
    (e.action g).released = g.released ∧ g.next ≤ (e.action g).next ∧
      ∀ q < g.next, ((e.action g).configs q).strings = (g.configs q).strings := by
  cases he : e.kind with
  | server =>
    obtain ⟨c, n, haction, hn, -⟩ := action_server e he g
    rw [haction]
    exact ⟨rfl, Nat.le_of_lt hn, fun q hq =>
      congrArg Configuration.strings (Function.update_of_ne (Nat.ne_of_lt hq) _ _)⟩
  | listen =>
    obtain ⟨p, c, n, b, hneeds, haction, -⟩ := action_listen e he g
    rw [haction]
    exact ⟨rfl, Nat.le_of_lt hneeds.lt, fun q hq => hneeds.strings_update hq rfl⟩
  | module =>
    obtain ⟨p, c, n, m, hneeds, haction, -⟩ := action_module e he g
    rw [haction]
    exact ⟨rfl, Nat.le_of_lt hneeds.lt, fun q hq => hneeds.strings_update hq rfl⟩

/-- So does a file. -/
theorem fileAction_frame (es : List Entry) (g : Globals) :
    (fileAction es g).released = g.released ∧ g.next ≤ (fileAction es g).next ∧
      ∀ q < g.next, ((fileAction es g).configs q).strings = (g.configs q).strings := by
  induction es generalizing g with
  | nil => exact ⟨rfl, Nat.le_refl _, fun _ _ => rfl⟩
  | cons e es ih =>
    obtain ⟨hreleased, hnext, hstrings⟩ := action_frame e g
    obtain ⟨hreleased', hnext', hstrings'⟩ := ih (e.action g)
    exact ⟨hreleased'.trans hreleased, Nat.le_trans hnext hnext', fun q hq =>
      (hstrings' q (Nat.lt_of_lt_of_le hq hnext)).trans (hstrings q hq)⟩

end

/-! ## What is released -/

/-- The configuration in use loses its blocks; released are these, and the strings of the
    other one. -/
theorem deallocateConfig_eq {g : Globals} {p : ℕ} (hp : g.config = some p) (old : ℕ) :
    ∃ g' freed, deallocateConfig (some old) g = .ok g' ∧ g'.config = some p ∧
      g'.released = g.released ++ (freed ++ (g.configs old).strings ++ [old]) ∧
      ((g.configs p).listenblocks = [] → (g.configs p).moduleblocks = [] → freed = []) ∧
      g'.settings = g.settings.map ({ · with listens := [], modules := [] }) ∧
      g'.parts p = p :: (g.configs p).strings := by
  let emptied : Configuration := { g.configs p with listenblocks := [], moduleblocks := [] }
  have hset : g.setConfig ({ · with listenblocks := [], moduleblocks := [] }) =
      { g with configs := Function.update g.configs p emptied } := by
    rw [Globals.setConfig, hp]
  have hstrings : (Function.update g.configs p emptied old).strings = (g.configs old).strings := by
    by_cases hold : old = p
    · subst hold
      rw [Function.update_self]
      rfl
    · rw [Function.update_of_ne hold]
  rw [deallocateConfig, hp]
  dsimp only
  rw [hset]
  refine ⟨_, g.freedBlocks (g.configs p), rfl, hp, ?_, ?_, ?_, ?_⟩
  · rw [← hstrings]
    simp only [Configuration.strings, List.append_assoc]
  · intro hlistens hmodules
    simp [Globals.freedBlocks, hlistens, hmodules]
  · simp [emptied, Globals.settings, hp, Globals.settingsOf, Settings.mapBlocks,
      Configuration.settings]
  · simp [emptied, Globals.parts, Configuration.strings]

/-! ## A rehash that succeeds -/

section

variable {g : Globals} {old : ℕ}

/-- After the file, the configuration in use is completed, loses its blocks, and the old one
    is released. -/
theorem rehash_eq (hold : g.config = some old) {es : List Entry} {p : ℕ}
    (hp : (fileAction es g).config = some p)
    (hdir : ((fileAction es g).configs p).directory ≠ none) :
    ∃ g' freed, rehash (some (fileText es)) g = .ok g' ∧ g'.config = some p ∧
      g'.released = g.released ++
        (freed ++ ((fileAction es g).configs old).strings ++ [old]) ∧
      (((fileAction es g).configs p).listenblocks = [] →
        ((fileAction es g).configs p).moduleblocks = [] → freed = []) ∧
      g'.settings = (fileAction es g).settings.map
        (fun s => { s.completed with listens := [], modules := [] }) ∧
      g'.parts p = p :: ((fileAction es g).configs p).strings := by
  obtain ⟨c, hset, hstrings, hlistens, hmodules, hsettings⟩ := setConfig_completed hp
  have hparse := parseConfig_fileText_ok_iff.2 ⟨p, hp, hdir, rfl⟩
  rw [hset] at hparse hsettings
  obtain ⟨g', freed, hdealloc, hp', hreleased, hblocks, hsettings', hparts⟩ := deallocateConfig_eq
    (show ({ fileAction es g with
      configs := Function.update (fileAction es g).configs p c } : Globals).config = some p from hp)
    old
  simp only [Function.update_self] at hreleased hblocks hparts
  have hstrings' : (Function.update (fileAction es g).configs p c old).strings =
      ((fileAction es g).configs old).strings := by
    -- Without a server block, the file has changed the old configuration itself.
    by_cases hold' : old = p
    · subst hold'
      rw [Function.update_self, hstrings]
    · rw [Function.update_of_ne hold']
  refine ⟨g', freed, ?_, hp', ?_, ?_, ?_, ?_⟩
  · rw [rehash, hparse, hold]
    exact hdealloc
  · rw [hreleased, hstrings', (fileAction_frame es g).1]
  · exact fun hnolistens hnomodules => hblocks (hlistens.trans hnolistens)
      (hmodules.trans hnomodules)
  · rw [hsettings', hsettings, Option.map_map]
    rfl
  · rw [hparts, hstrings]

/-- What the last block makes of the settings. -/
theorem settings_concat (hbelow : g.Below) (es : List Entry) (e : Entry) :
    (fileAction (es ++ [e]) g).settings = some (e.apply (fileApply es g.settings)) := by
  rw [(settings_fileAction (es ++ [e]) hbelow).1, fileApply, List.foldl_concat]
  rfl

/-- Where there are settings there is a configuration, with a directory if they have one. -/
theorem exists_config {s : FileSettings} (h : g.settings = some s) :
    ∃ p, g.config = some p ∧ ((g.configs p).directory = none ↔ s.directory = none) := by
  obtain ⟨p, hp, hs⟩ := Option.map_eq_some_iff.1 h
  refine ⟨p, hp, ?_⟩
  rw [← hs]
  exact Option.map_eq_none_iff.symm

theorem Entry.apply_server {e : Entry} (he : e.kind = .server) (s : Option FileSettings) :
    e.apply s = e.server := by
  rw [Entry.apply, he]

/-- A server block has no listen and module blocks to lose. -/
theorem Entry.server_without_blocks (e : Entry) :
    { e.server.completed with listens := [], modules := [] } = e.server.completed := by
  obtain ⟨hlistens, hmodules⟩ :=
    Settings.foldl_assign_blocks (.defaults 1 : FileSettings) e.items
  have hempty : ∀ s : FileSettings, s.listens = [] → s.modules = [] →
      { s.completed with listens := [], modules := [] } = s.completed := by
    rintro s hl hm
    rw [← hl, ← hm]
    rfl
  exact hempty e.server hlistens hmodules

/-- A last server block leaves nothing of what was there before. -/
theorem rehash_server (hold : g.config = some old) (halloc : g.Allocated) {es : List Entry}
    {e : Entry} (he : e.kind = .server) {p : ℕ} (hp : (fileAction (es ++ [e]) g).config = some p)
    (hdir : ((fileAction (es ++ [e]) g).configs p).directory ≠ none) :
    ∃ g', rehash (some (fileText (es ++ [e]))) g = .ok g' ∧
      Installed (some (fileText (es ++ [e]))) old g g' := by
  obtain ⟨g', freed, hrehash, hp', hreleased, hblocks, hsettings, hparts⟩ :=
    rehash_eq hold hp hdir
  have hrun : (fileAction (es ++ [e]) g).settings = some e.server := by
    rw [settings_concat halloc.below, Entry.apply_server he]
  have hfresh : (fileAction (es ++ [e]) .fresh).settings = some e.server := by
    rw [settings_concat below_fresh, Entry.apply_server he]
  obtain ⟨q, hq, hdirq⟩ := exists_config hrun
  obtain ⟨p₀, hp₀, hdir₀⟩ := exists_config hfresh
  have hqp : q = p := Option.some.inj (hq.symm.trans hp)
  -- The new configuration is where nothing was.
  obtain ⟨c, n, haction, -, -, ⟨hlistens, hmodules⟩, hstrings⟩ :=
    action_server e he (fileAction es g)
  have hc : p = (fileAction es g).next ∧ (fileAction (es ++ [e]) g).configs p = c := by
    rw [fileAction_concat, haction] at hp ⊢
    cases hp
    exact ⟨rfl, Function.update_self _ _ _⟩
  have hnew : ∀ x ∈ g'.parts p, g.next ≤ x := by
    have hnext := (fileAction_frame es g).2.1
    rw [hparts, hc.2]
    intro x hx
    rcases List.mem_cons.1 hx with rfl | hx
    · exact hc.1 ▸ hnext
    · exact Nat.le_trans hnext (Nat.le_of_lt (hstrings x hx).1)
  -- What is released was there before.
  have hfreed : freed ++ ((fileAction (es ++ [e]) g).configs old).strings ++ [old] =
      (g.configs old).strings ++ [old] := by
    rw [hblocks (hc.2 ▸ hlistens) (hc.2 ▸ hmodules), List.nil_append,
      (fileAction_frame (es ++ [e]) g).2.2 old (halloc.lt hold)]
  rw [hfreed] at hreleased
  refine ⟨g', hrehash, ⟨_, parseConfig_fileText_ok_iff.2 ⟨p₀, hp₀, ?_, rfl⟩, ?_⟩,
    _, hreleased, fun _ => Globals.mem_parts, ?_⟩
  · exact fun h => hdir (hqp ▸ hdirq.2 (hdir₀.1 h))
  · obtain ⟨-, -, -, -, -, hcompleted⟩ := setConfig_completed hp₀
    rw [hsettings, hcompleted, hrun, hfresh]
    exact congrArg some e.server_without_blocks
  · intro p' hp'' x hx hxold
    cases hp'.symm.trans hp''
    exact absurd (halloc old hold x (Globals.mem_parts hxold)) (Nat.not_lt.2 (hnew x hx))

/-- Any other last block is lost. -/
theorem not_installed (hold : g.config = some old) {es : List Entry} {e : Entry}
    (he : e.kind ≠ .server) {p : ℕ} (hp : (fileAction (es ++ [e]) g).config = some p)
    (hdir : ((fileAction (es ++ [e]) g).configs p).directory ≠ none) {g' : Globals}
    (hrehash : rehash (some (fileText (es ++ [e]))) g = .ok g') :
    ¬Installed (some (fileText (es ++ [e]))) old g g' := by
  rintro ⟨⟨g₀, hparse, hsettings⟩, -⟩
  obtain ⟨p₀, hp₀, hdir₀, rfl⟩ := parseConfig_fileText_ok_iff.1 hparse
  obtain ⟨-, -, -, -, -, hcompleted⟩ := setConfig_completed hp₀
  obtain ⟨g'', freed, hrehash', -, -, -, hsettings', -⟩ := rehash_eq hold hp hdir
  cases hrehash.symm.trans hrehash'
  rw [hcompleted, settings_concat below_fresh, hsettings'] at hsettings
  obtain ⟨s, hs⟩ : ∃ s, (fileAction (es ++ [e]) g).settings = some s := by
    rw [Globals.settings, hp]
    exact ⟨_, rfl⟩
  rw [hs, Option.map_some, Option.map_some, Option.some.injEq] at hsettings
  cases hkind : e.kind with
  | server => exact he hkind
  | listen =>
    have hlistens := congrArg Settings.listens hsettings
    simp [Entry.apply, hkind, Settings.completed] at hlistens
  | module =>
    have hmodules := congrArg Settings.modules hsettings
    simp [Entry.apply, hkind, Settings.completed] at hmodules

end

/-- Rehashing changes the globals, and an event is raised. -/
theorem sighup_iff {configfile : Option (List Token)} {d : Daemon} {P : Daemon → Prop} :
    (∃ d' ∈ (signalHandler configfile .SIGHUP d).toOption, P d') ↔
      ∃ g', rehash configfile d.globals = .ok g' ∧
        P ⟨g', d.running, d.cnt, d.events ++ [.SIGHUP]⟩ := by
  rw [signalHandler]
  cases rehash configfile d.globals with
  | error e => simp [Except.map, Except.toOption]
  | ok g' => simp [Except.map, Except.toOption]

/-- A rehash that succeeds installs the configuration of the file if and only if the last
    block of the file is a server block. -/
theorem rehash_installs_iff (d : Daemon) {old : ℕ} (hold : d.globals.config = some old)
    (halloc : d.globals.Allocated) (configfile : Option (List Token)) {g₁ : Globals}
    (haccept : parseConfig configfile d.globals = .ok (0, g₁)) :
    RehashInstalls configfile old d ↔
      ∃ es e, configfile = some (fileText (es ++ [e])) ∧ e.kind = .server := by
  rw [RehashInstalls, sighup_iff]
  constructor
  · rintro ⟨g', hrehash, hinstalled⟩
    have houtcome := parseConfig_outcome configfile d.globals
    rw [haccept] at houtcome
    cases houtcome with
    | ok es p hp hdir =>
      obtain rfl | ⟨es, e, rfl⟩ := List.eq_nil_or_concat es
      · -- From a fresh start, there is no configuration.
        obtain ⟨⟨g₀, hparse, -⟩, -⟩ := hinstalled
        obtain ⟨p₀, hp₀, -⟩ := parseConfig_fileText_ok_iff.1 hparse
        cases hp₀
      · rw [List.concat_eq_append] at hp hdir hrehash hinstalled ⊢
        refine ⟨es, e, rfl, by_contra fun he => ?_⟩
        exact not_installed hold he hp hdir hrehash hinstalled
  · rintro ⟨es, e, rfl, he⟩
    obtain ⟨p, hp, hdir, -⟩ := parseConfig_fileText_ok_iff.1 haccept
    exact rehash_server hold halloc he hp hdir

/-- A server that was started with the server block only. -/
def Sample.daemon : Daemon :=
  ⟨(fileAction [serverBlock] .fresh).setConfig Configuration.completed, true, 0, []⟩

theorem Sample.allocated : Sample.daemon.globals.Allocated := by
  intro p hp
  obtain rfl : 1 = p := Option.some.inj hp
  decide

theorem rehash_installs_serverBlock :
    RehashInstalls (some (fileText [Sample.serverBlock])) 1 Sample.daemon :=
  (rehash_installs_iff Sample.daemon rfl Sample.allocated _
    (parseConfig_fileText_ok_iff.2 ⟨3, rfl, by decide, rfl⟩)).2
    ⟨[], Sample.serverBlock, rfl, rfl⟩

/-- The listen block of the file is lost. -/
theorem not_rehash_installs : ¬∀ (d : Daemon) old configfile g₁, d.globals.config = some old →
    d.globals.Allocated → parseConfig configfile d.globals = .ok (0, g₁) →
    RehashInstalls configfile old d := by
  intro h
  obtain ⟨g', hrehash, hinstalled⟩ := sighup_iff.1 (h Sample.daemon 1
    (some (fileText ([Sample.serverBlock] ++ [Sample.listenBlock]))) _ rfl Sample.allocated
    (parseConfig_fileText_ok_iff.2 ⟨3, rfl, by decide, rfl⟩))
  exact not_installed rfl (by decide) (p := 3) rfl (by decide) hrehash hinstalled

/-! ## A rehash that fails -/

/-- The configuration in use is new, from a pointer on, or the old one with a number of
    blocks. -/
def Globals.Moved (start old k : ℕ) (g : Globals) : Prop :=
  (∃ p, g.config = some p ∧ start ≤ p) ∨
    (g.config = some old ∧
      k ≤ (g.configs old).listenblocks.length + (g.configs old).moduleblocks.length)

section

variable {g : Globals} {start old k : ℕ}

/-- A configuration that is added to stays where it is. -/
theorem Globals.Needs.moved {p n : ℕ} {c : Configuration} (hneeds : g.Needs p c n)
    (h : g.Moved start old k) : start ≤ p ∨
      p = old ∧ k ≤ c.listenblocks.length + c.moduleblocks.length := by
  rcases hneeds with ⟨hp, rfl, -⟩ | ⟨hp, -⟩
  · rcases h with ⟨q, hq, hstart⟩ | ⟨hold, hk⟩
    · cases hp.symm.trans hq
      exact .inl hstart
    · cases hp.symm.trans hold
      exact .inr ⟨rfl, hk⟩
  · rcases h with ⟨q, hq, -⟩ | ⟨hold, -⟩
    · cases hp.symm.trans hq
    · cases hp.symm.trans hold

/-- A block brings a new configuration into use, or is one more block of the old one. -/
theorem moved_action (e : Entry) (hstart : start ≤ g.next) (h : g.Moved start old k) :
    (e.action g).Moved start old (k + 1) := by
  cases he : e.kind with
  | server =>
    obtain ⟨c, n, haction, -⟩ := action_server e he g
    rw [haction]
    exact .inl ⟨g.next, rfl, hstart⟩
  | listen =>
    obtain ⟨p, c, n, b, hneeds, haction, -⟩ := action_listen e he g
    rw [haction]
    rcases hneeds.moved h with hstart' | ⟨rfl, hk⟩
    · exact .inl ⟨p, rfl, hstart'⟩
    · refine .inr ⟨rfl, ?_⟩
      simp only [Function.update_self, List.length_append, List.length_singleton]
      omega
  | module =>
    obtain ⟨p, c, n, m, hneeds, haction, -⟩ := action_module e he g
    rw [haction]
    rcases hneeds.moved h with hstart' | ⟨rfl, hk⟩
    · exact .inl ⟨p, rfl, hstart'⟩
    · refine .inr ⟨rfl, ?_⟩
      simp only [Function.update_self, List.length_append, List.length_singleton]
      omega

theorem moved_fileAction (es : List Entry) (hstart : start ≤ g.next) (h : g.Moved start old k) :
    (fileAction es g).Moved start old (k + es.length) := by
  induction es generalizing g k with
  | nil => exact h
  | cons e es ih =>
    rw [List.length_cons, Nat.add_comm es.length, ← Nat.add_assoc]
    exact ih (Nat.le_trans hstart (action_frame e g).2.1) (moved_action e hstart h)

/-- A file with a block changes the configuration. -/
theorem not_kept_fileAction (hold : g.config = some old) (halloc : g.Allocated) {es : List Entry}
    (hes : es ≠ []) : ¬Kept g (fileAction es g) := by
  intro hkept
  have hmoved := moved_fileAction es (Nat.le_refl g.next) (.inr ⟨hold, Nat.le_refl _⟩)
  have hlength := List.length_pos_of_ne_nil hes
  rcases hmoved with ⟨p, hp, hnext⟩ | ⟨-, hk⟩
  · cases (hkept.config.trans hold).symm.trans hp
    exact absurd (halloc.lt hold) (Nat.not_lt.2 hnext)
  · rw [hkept.configs old hold] at hk
    omega

theorem Kept.refl (g : Globals) : Kept g g where
  config := rfl
  configs := fun _ _ => rfl
  listens := fun _ _ _ _ => rfl
  modules := fun _ _ _ _ => rfl

theorem fileText_eq_nil_iff {es : List Entry} : fileText es = [] ↔ es = [] := by
  cases es with
  | nil => exact iff_of_true rfl rfl
  | cons e es => simp [fileText, Entry.tokens]

end

/-- A rehash that fails changes nothing if and only if the file cannot be opened or says
    nothing. -/
theorem rehash_keeps_iff (d : Daemon) {old : ℕ} (hold : d.globals.config = some old)
    (halloc : d.globals.Allocated) (configfile : Option (List Token))
    (hfail : ∀ g₁, parseConfig configfile d.globals ≠ .ok (0, g₁)) :
    RehashKeeps configfile d ↔ configfile = none ∨ configfile = some [] := by
  have hrehash : RehashKeeps configfile d ↔
      ∃ g', rehash configfile d.globals = .ok g' ∧ Kept d.globals g' := by
    rw [RehashKeeps, sighup_iff]
    simp
  have houtcome := parseConfig_outcome configfile d.globals
  rw [hrehash, rehash]
  revert hfail
  generalize parseConfig configfile d.globals = outcome at houtcome
  intro hfail
  cases houtcome with
  | unreadable => exact iff_of_true ⟨_, rfl, .refl _⟩ (.inl rfl)
  | wrong toks h =>
    -- A parse error ends the process.
    refine iff_of_false ?_ ?_
    · rintro ⟨g', hg', -⟩
      cases hg'
    · rintro (htoks | htoks) <;> cases htoks
      exact h [] rfl
  | noDirectory es h =>
    rw [or_iff_right (by simp), Option.some.injEq, fileText_eq_nil_iff]
    constructor
    · rintro ⟨g', hg', hkept⟩
      cases hg'
      exact by_contra fun hes => not_kept_fileAction hold halloc hes hkept
    · rintro rfl
      exact ⟨_, rfl, .refl _⟩
  | ok es p hp h => exact absurd rfl (hfail _)

/-- A server block without a directory. -/
def Sample.noDirectory : Entry := ⟨.server, [], by decide⟩

theorem rehash_keeps_unreadable : RehashKeeps none Sample.daemon :=
  (rehash_keeps_iff Sample.daemon rfl Sample.allocated none (by simp [parseConfig])).2 (.inl rfl)

/-- Without a directory the configuration is refused, and left in use. -/
theorem not_rehash_keeps : ¬∀ (d : Daemon) old configfile, d.globals.config = some old →
    d.globals.Allocated → (∀ g₁, parseConfig configfile d.globals ≠ .ok (0, g₁)) →
    RehashKeeps configfile d := by
  intro h
  obtain ⟨g', hrehash, -, hkept⟩ := sighup_iff.1 (h Sample.daemon 1
    (some (fileText [Sample.noDirectory])) rfl Sample.allocated
    (fun g₁ hg₁ => by
      obtain ⟨p, hp, hdir, -⟩ := parseConfig_fileText_ok_iff.1 hg₁
      cases hp
      exact hdir rfl))
  have hfailed : rehash (some (fileText [Sample.noDirectory])) Sample.daemon.globals =
      .ok (fileAction [Sample.noDirectory] Sample.daemon.globals) := rfl
  cases hrehash.symm.trans hfailed
  exact not_kept_fileAction rfl Sample.allocated (by simp) hkept

end Nbstftp
