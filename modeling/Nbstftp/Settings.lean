import Nbstftp.Parser

/-!
# Settings

What a configuration says, without its pointers (`Globals.settings`), and what a file says:
a `server` block replaces all settings by its own, a `listen` or `module` block is added to
those there are (`Entry.apply`). The actions of the grammar do that on the heap
(`settings_fileAction`), and `ParseConfig` then checks and completes it
(`parseConfig_settings`).
-/

namespace Nbstftp

/-- What a listen block says. -/
structure ListenSettings where
  bindaddr : Option Bytes
  port : Int
  deriving DecidableEq

/-- What a module block says. -/
structure ModuleSettings where
  name : Option Bytes
  path : Option Bytes
  deriving DecidableEq

/-- What a configuration says, of listen and module blocks of any kind. -/
structure Settings (L M : Type) where
  directory : Option Bytes
  user : Option Bytes
  group : Option Bytes
  pidfile : Option Bytes
  modsearchpath : Option Bytes
  daemonize : Int
  fixpath : Int
  readtimeout : Int
  listens : List L
  modules : List M
  deriving DecidableEq

/-- What a file says. -/
abbrev FileSettings : Type := Settings ListenSettings ModuleSettings

namespace Settings

variable {L M L' M' : Type}

/-- The blocks replaced by what they stand for. -/
def mapBlocks (f : L → L') (f' : M → M') (s : Settings L M) : Settings L' M' where
  directory := s.directory
  user := s.user
  group := s.group
  pidfile := s.pidfile
  modsearchpath := s.modsearchpath
  daemonize := s.daemonize
  fixpath := s.fixpath
  readtimeout := s.readtimeout
  listens := s.listens.map f
  modules := s.modules.map f'

/-! ## What a file says -/

def defaults (daemonize : Int) : Settings L M :=
  ⟨none, none, none, none, none, daemonize, 1, 5, [], []⟩

def assign (s : Settings L M) : Assignment → Settings L M
  | .directory v => { s with directory := some v }
  | .user v => { s with user := some v }
  | .group v => { s with group := some v }
  | .pidfile v => { s with pidfile := some v }
  | .moduleSearchPath v => { s with modsearchpath := some v }
  | .daemonize b => { s with daemonize := b.toInt }
  | .fixpath b => { s with fixpath := b.toInt }
  | .readtimeout n => { s with readtimeout := n }
  | _ => s

/-- The settings as they are used: a pid file, and a timeout that is not too short. -/
def completed (s : Settings L M) : Settings L M :=
  { s with
    pidfile := some (s.pidfile.getD (ascii "/var/run/nbstftp.pid"))
    readtimeout := if s.readtimeout < 2 then 5 else s.readtimeout }

theorem mapBlocks_assign (f : L → L') (f' : M → M') (s : Settings L M) (a : Assignment) :
    (s.assign a).mapBlocks f f' = (s.mapBlocks f f').assign a := by
  cases a <;> rfl

theorem mapBlocks_foldl_assign (f : L → L') (f' : M → M') (s : Settings L M)
    (items : List Assignment) : (items.foldl assign s).mapBlocks f f' =
      items.foldl assign (s.mapBlocks f f') := by
  induction items generalizing s with
  | nil => rfl
  | cons a items ih => rw [List.foldl_cons, ih, mapBlocks_assign, List.foldl_cons]

/-- Items keep the blocks. -/
theorem foldl_assign_blocks (s : Settings L M) (items : List Assignment) :
    (items.foldl assign s).listens = s.listens ∧ (items.foldl assign s).modules = s.modules := by
  induction items generalizing s with
  | nil => exact ⟨rfl, rfl⟩
  | cons a items ih =>
    rw [List.foldl_cons, (ih _).1, (ih _).2]
    cases a <;> exact ⟨rfl, rfl⟩

end Settings

def ListenSettings.assign (s : ListenSettings) : Assignment → ListenSettings
  | .bind v => { s with bindaddr := some v }
  | .port n => { s with port := n.bmod UInt16.size }
  | _ => s

def ModuleSettings.assign (s : ModuleSettings) : Assignment → ModuleSettings
  | .path v => { s with path := some v }
  | .name v => { s with name := some v }
  | _ => s

namespace Entry

/-- A server block, as settings. -/
def server (e : Entry) : FileSettings := e.items.foldl Settings.assign (.defaults 1)

/-- A listen block. -/
def listen (e : Entry) : ListenSettings := e.items.foldl ListenSettings.assign ⟨none, -1⟩

/-- A module block. -/
def module (e : Entry) : ModuleSettings := e.items.foldl ModuleSettings.assign ⟨none, none⟩

/-- What a block makes of the settings. -/
def apply (s : Option FileSettings) (e : Entry) : FileSettings :=
  let s' := s.getD (.defaults (-1))
  match e.kind with
  | .server => e.server
  | .listen => { s' with listens := s'.listens ++ [e.listen] }
  | .module => { s' with modules := s'.modules ++ [e.module] }

end Entry

/-- What the blocks of a file make of the settings. -/
def fileApply (es : List Entry) (s : Option FileSettings) : Option FileSettings :=
  es.foldl (fun s e => some (e.apply s)) s

/-! ## What a configuration says -/

def ListenBlock.settings (b : ListenBlock) : ListenSettings :=
  ⟨b.bindaddr.map HeapString.text, b.port⟩

def ConfModule.settings (m : ConfModule) : ModuleSettings :=
  ⟨m.name.map HeapString.text, m.path.map HeapString.text⟩

/-- The settings, with pointers to the blocks. -/
def Configuration.settings (c : Configuration) : Settings ℕ ℕ where
  directory := c.directory.map HeapString.text
  user := c.user.map HeapString.text
  group := c.group.map HeapString.text
  pidfile := c.pidfile
  modsearchpath := c.modsearchpath
  daemonize := c.daemonize
  fixpath := c.fixpath
  readtimeout := c.readtimeout
  listens := c.listenblocks
  modules := c.moduleblocks

namespace Globals

/-- The settings of a configuration. -/
def settingsOf (g : Globals) (c : Configuration) : FileSettings :=
  c.settings.mapBlocks (fun b => (g.listens b).settings) fun m => (g.modules m).settings

/-- The settings in use. -/
def settings (g : Globals) : Option FileSettings :=
  g.config.map fun p => g.settingsOf (g.configs p)

end Globals

/-- The strings of a configuration that are released with it. -/
def Configuration.strings (c : Configuration) : List ℕ :=
  freed c.user ++ freed c.group ++ freed c.directory

namespace Globals

/-- The pointers of a configuration: to itself, its strings and its blocks. -/
def parts (g : Globals) (p : ℕ) : List ℕ :=
  p :: (g.configs p).strings ++
    (g.configs p).listenblocks.flatMap (fun b => b :: freed (g.listens b).bindaddr) ++
    (g.configs p).moduleblocks.flatMap fun m =>
      m :: (freed (g.modules m).name ++ freed (g.modules m).path)

/-- What the configuration in use points to has been allocated. -/
def Allocated (g : Globals) : Prop :=
  ∀ p, g.config = some p → ∀ x ∈ g.parts p, x < g.next

/-- The blocks of the configuration in use have been allocated. -/
def Below (g : Globals) : Prop :=
  ∀ p, g.config = some p →
    (∀ b ∈ (g.configs p).listenblocks, b < g.next) ∧ ∀ m ∈ (g.configs p).moduleblocks, m < g.next

variable {g : Globals}

/-- The strings of a configuration are parts of it, and so is itself. -/
theorem mem_parts {p x : ℕ} (h : x ∈ (g.configs p).strings ++ [p]) : x ∈ g.parts p := by
  refine List.mem_append_left _ (List.mem_append_left _ ?_)
  rcases List.mem_append.1 h with h | h
  · exact List.mem_cons_of_mem _ h
  · cases List.mem_singleton.1 h
    exact List.mem_cons_self

theorem Allocated.lt (h : g.Allocated) {p : ℕ} (hp : g.config = some p) : p < g.next :=
  h p hp p (by simp [parts])

theorem Allocated.below (h : g.Allocated) : g.Below := by
  refine fun p hp => ⟨fun b hb => h p hp b ?_, fun m hm => h p hp m ?_⟩
  · exact List.mem_append_left _ (List.mem_append_right _
      (List.mem_flatMap.2 ⟨b, hb, List.mem_cons_self⟩))
  · exact List.mem_append_right _ (List.mem_flatMap.2 ⟨m, hm, List.mem_cons_self⟩)

end Globals

/-! ## Items -/

section

variable {α β : Type}

/-- Something on the heap is written to: what it says is changed by `f`, and its strings are
    the ones it had, or new. -/
structure Written (say : α → β) (strings : α → List ℕ) (x x' : α) (lo hi : ℕ) (f : β → β) :
    Prop where
  say : say x' = f (say x)
  strings : ∀ s ∈ strings x', s ∈ strings x ∨ lo ≤ s ∧ s < hi

variable {say : α → β} {strings : α → List ℕ}

/-- The items of a block, if each is written where the block is. -/
theorem foldl_written (put : α → ℕ → Globals) (assign : β → Assignment → β)
    (items : List Assignment)
    (hitem : ∀ a ∈ items, ∀ x n, ∃ x' n', a.action (put x n) = put x' n' ∧ n ≤ n' ∧
      Written say strings x x' n n' (assign · a)) (x : α) (n : ℕ) :
    ∃ x' n', items.foldl (fun g a => a.action g) (put x n) = put x' n' ∧ n ≤ n' ∧
      Written say strings x x' n n' (items.foldl assign ·) := by
  induction items generalizing x n with
  | nil => exact ⟨x, n, rfl, Nat.le_refl n, rfl, fun s hs => .inl hs⟩
  | cons a items ih =>
    obtain ⟨x₁, n₁, ha, hn₁, hsay₁, hstrings₁⟩ := hitem a List.mem_cons_self x n
    obtain ⟨x', n', hitems, hn', hsay', hstrings'⟩ :=
      ih (fun a ha => hitem a (List.mem_cons_of_mem _ ha)) x₁ n₁
    refine ⟨x', n', ?_, Nat.le_trans hn₁ hn', ?_, fun s hs => ?_⟩
    · rw [List.foldl_cons, ha, hitems]
    · rw [hsay', hsay₁, List.foldl_cons]
    · rcases hstrings' s hs with hs | ⟨hlo, hhi⟩
      · exact (hstrings₁ s hs).imp_right fun ⟨hlo, hhi⟩ => ⟨hlo, Nat.lt_of_lt_of_le hhi hn'⟩
      · exact .inr ⟨Nat.le_trans hn₁ hlo, hhi⟩

end

/-- The globals with another configuration in use, and a next pointer. -/
def Globals.putConfig (g : Globals) (p : ℕ) (c : Configuration) (n : ℕ) : Globals :=
  { g with configs := Function.update g.configs p c, next := n }

section

variable (g : Globals) {p : ℕ} (hp : g.config = some p) (c : Configuration) (n : ℕ)

include hp

theorem setConfig_putConfig (f : Configuration → Configuration) :
    (g.putConfig p c n).setConfig f = g.putConfig p (f c) n := by
  simp [Globals.setConfig, Globals.putConfig, hp]

/-- A string that is stored is new, in the place of one or none. -/
theorem storeString_written {a : Assignment} (set : Configuration → HeapString → Configuration)
    (s : Bytes) (haction : a.action = storeString set s)
    (hsay : (set c ⟨n, s⟩).settings = c.settings.assign a)
    (hstrings : ∀ x ∈ (set c ⟨n, s⟩).strings, x ∈ c.strings ∨ x = n) :
    ∃ c' n', a.action (g.putConfig p c n) = g.putConfig p c' n' ∧ n ≤ n' ∧
      Written Configuration.settings Configuration.strings c c' n n' (Settings.assign · a) := by
  refine ⟨set c ⟨n, s⟩, n + 1, ?_, Nat.le_succ n, hsay, fun x hx => ?_⟩
  · rw [haction]
    exact setConfig_putConfig g hp c (n + 1) (set · ⟨n, s⟩)
  · exact (hstrings x hx).imp_right fun hxn => by omega

/-- An item that is no string is. -/
theorem setConfig_written {a : Assignment} (f : Configuration → Configuration)
    (haction : a.action = fun g => g.setConfig f)
    (hsay : (f c).settings = c.settings.assign a) (hstrings : (f c).strings = c.strings) :
    ∃ c' n', a.action (g.putConfig p c n) = g.putConfig p c' n' ∧ n ≤ n' ∧
      Written Configuration.settings Configuration.strings c c' n n' (Settings.assign · a) := by
  refine ⟨f c, n, ?_, Nat.le_refl n, hsay, fun x hx => .inl (hstrings ▸ hx)⟩
  rw [haction]
  exact setConfig_putConfig g hp c n f

/-- An item of a server block is written to the configuration in use. -/
theorem action_putConfig {a : Assignment} (ha : a.item.kind = .server) :
    ∃ c' n', a.action (g.putConfig p c n) = g.putConfig p c' n' ∧ n ≤ n' ∧
      Written Configuration.settings Configuration.strings c c' n n' (Settings.assign · a) := by
  cases a with
  | directory s =>
    refine storeString_written g hp c n (fun c s => { c with directory := some s }) s rfl rfl ?_
    simp +contextual [Configuration.strings, freed, or_imp]
  | user s =>
    refine storeString_written g hp c n (fun c s => { c with user := some s }) s rfl rfl ?_
    simp +contextual [Configuration.strings, freed, or_imp]
  | group s =>
    refine storeString_written g hp c n (fun c s => { c with group := some s }) s rfl rfl ?_
    simp +contextual [Configuration.strings, freed, or_imp]
  | pidfile s =>
    exact storeString_written g hp c n (fun c s => { c with pidfile := some s.text }) s rfl rfl
      fun x hx => .inl hx
  | moduleSearchPath s =>
    exact storeString_written g hp c n (fun c s => { c with modsearchpath := some s.text }) s rfl
      rfl fun x hx => .inl hx
  | daemonize b =>
    exact setConfig_written g hp c n (fun c => { c with daemonize := b.toInt }) rfl rfl rfl
  | readtimeout v =>
    exact setConfig_written g hp c n (fun c => { c with readtimeout := v }) rfl rfl rfl
  | fixpath b =>
    exact setConfig_written g hp c n (fun c => { c with fixpath := b.toInt }) rfl rfl rfl
  | bind s => cases ha
  | port v => cases ha
  | path s => cases ha
  | name s => cases ha

end

/-- The globals with another listen block last opened, and a next pointer. -/
def Globals.putListen (g : Globals) (b : ListenBlock) (n : ℕ) : Globals :=
  { g with listens := Function.update g.listens g.curblock b, next := n }

/-- The globals with another module block last opened, and a next pointer. -/
def Globals.putModule (g : Globals) (m : ConfModule) (n : ℕ) : Globals :=
  { g with modules := Function.update g.modules g.curmod m, next := n }

/-- An item of a listen block is written to the block opened last. -/
theorem action_putListen (g : Globals) (b : ListenBlock) (n : ℕ) {a : Assignment}
    (ha : a.item.kind = .listen) :
    ∃ b' n', a.action (g.putListen b n) = g.putListen b' n' ∧ n ≤ n' ∧
      Written ListenBlock.settings (freed ·.bindaddr) b b' n n' (ListenSettings.assign · a) := by
  cases a with
  | bind s =>
    refine ⟨{ b with bindaddr := some ⟨n, s⟩ }, n + 1, ?_, Nat.le_succ n, rfl, ?_⟩
    · simp [Assignment.action, listenBind, Globals.strdup, Globals.setListen, Globals.putListen]
    · simp [freed]
  | port v =>
    refine ⟨{ b with port := v.bmod UInt16.size }, n, ?_, Nat.le_refl n, rfl, fun x hx => .inl hx⟩
    simp [Assignment.action, listenPort, Globals.setListen, Globals.putListen]
  | _ => cases ha

/-- An item of a module block is written to the block opened last. -/
theorem action_putModule (g : Globals) (m : ConfModule) (n : ℕ) {a : Assignment}
    (ha : a.item.kind = .module) :
    ∃ m' n', a.action (g.putModule m n) = g.putModule m' n' ∧ n ≤ n' ∧
      Written ConfModule.settings (fun m => freed m.name ++ freed m.path) m m' n n'
        (ModuleSettings.assign · a) := by
  cases a with
  | path s =>
    refine ⟨{ m with path := some ⟨n, s⟩ }, n + 1, ?_, Nat.le_succ n, rfl, ?_⟩
    · simp [Assignment.action, modulePath, Globals.strdup, Globals.setModule, Globals.putModule]
    · simp +contextual [freed, or_imp]
  | name s =>
    refine ⟨{ m with name := some ⟨n, s⟩ }, n + 1, ?_, Nat.le_succ n, rfl, ?_⟩
    · simp [Assignment.action, moduleName, Globals.strdup, Globals.setModule, Globals.putModule]
    · simp +contextual [freed, or_imp]
  | _ => cases ha

/-! ## Blocks -/

/-- The configuration a listen or module block is added to: the one in use, or a new one. -/
def Globals.Needs (g : Globals) (p : ℕ) (c : Configuration) (n : ℕ) : Prop :=
  (g.config = some p ∧ c = g.configs p ∧ g.next < n) ∨
    (g.config = none ∧ p = g.next + 1 ∧ c = .defaults (-1) ∧ p < n)

theorem Globals.Needs.lt {g : Globals} {p : ℕ} {c : Configuration} {n : ℕ}
    (h : g.Needs p c n) : g.next < n := by
  rcases h with ⟨-, -, hn⟩ | ⟨-, rfl, -, hn⟩ <;> omega

theorem Globals.Needs.mono {g : Globals} {p : ℕ} {c : Configuration} {n n' : ℕ}
    (h : g.Needs p c n) (hn : n ≤ n') : g.Needs p c n' := by
  rcases h with ⟨hp, hc, hlt⟩ | ⟨hp, hnext, hc, hlt⟩
  · exact .inl ⟨hp, hc, by omega⟩
  · exact .inr ⟨hp, hnext, hc, by omega⟩

/-- A server block makes a new configuration, with strings of its own and no blocks. -/
theorem action_server (e : Entry) (he : e.kind = .server) (g : Globals) :
    ∃ c n, e.action g =
        { g with
          config := some g.next, configs := Function.update g.configs g.next c, next := n } ∧
      g.next < n ∧ c.settings = e.items.foldl Settings.assign (.defaults 1) ∧
      (c.listenblocks = [] ∧ c.moduleblocks = []) ∧ ∀ x ∈ c.strings, g.next < x ∧ x < n := by
  have hentry : e.kind.action g =
      ({ g with config := some g.next } : Globals).putConfig g.next (.defaults 1) (g.next + 1) := by
    rw [he]
    rfl
  obtain ⟨c, n, hitems, hn, hsay, hstrings⟩ := foldl_written
    (fun c n => ({ g with config := some g.next } : Globals).putConfig g.next c n)
    Settings.assign e.items
    (fun a ha c n => action_putConfig _ rfl c n (he ▸ e.kind_eq a ha)) (.defaults 1) (g.next + 1)
  refine ⟨c, n, ?_, hn, hsay, ?_, fun x hx => ?_⟩
  · rw [Entry.action, hentry, hitems]
    rfl
  · have hblocks := Settings.foldl_assign_blocks (.defaults 1 : Settings ℕ ℕ) e.items
    exact ⟨(congrArg Settings.listens hsay).trans hblocks.1,
      (congrArg Settings.modules hsay).trans hblocks.2⟩
  · rcases hstrings x hx with hx | hx
    · cases hx
    · exact hx

theorem listenEntry_eq (g : Globals) : ∃ p c n, g.Needs p c n ∧ listenEntry g =
    ({ g with
      config := some p
      configs := Function.update g.configs p
        { c with listenblocks := c.listenblocks ++ [g.next] }
      curblock := g.next } : Globals).putListen ⟨none, -1⟩ n := by
  cases hconfig : g.config with
  | some p =>
    refine ⟨p, g.configs p, g.next + 1, .inl ⟨hconfig, rfl, Nat.lt_succ_self _⟩, ?_⟩
    simp [listenEntry, Globals.needConfig, Globals.setConfig, Globals.putListen, hconfig]
  | none =>
    refine ⟨g.next + 1, .defaults (-1), g.next + 2, .inr ⟨hconfig, rfl, rfl, by omega⟩, ?_⟩
    simp [listenEntry, Globals.needConfig, Globals.setConfig, Globals.putListen, hconfig,
      Globals.newConfig]

theorem moduleEntry_eq (g : Globals) : ∃ p c n, g.Needs p c n ∧ moduleEntry g =
    ({ g with
      config := some p
      configs := Function.update g.configs p
        { c with moduleblocks := c.moduleblocks ++ [g.next] }
      curmod := g.next } : Globals).putModule ⟨none, none⟩ n := by
  cases hconfig : g.config with
  | some p =>
    refine ⟨p, g.configs p, g.next + 1, .inl ⟨hconfig, rfl, Nat.lt_succ_self _⟩, ?_⟩
    simp [moduleEntry, Globals.needConfig, Globals.setConfig, Globals.putModule, hconfig]
  | none =>
    refine ⟨g.next + 1, .defaults (-1), g.next + 2, .inr ⟨hconfig, rfl, rfl, by omega⟩, ?_⟩
    simp [moduleEntry, Globals.needConfig, Globals.setConfig, Globals.putModule, hconfig,
      Globals.newConfig]

/-- A listen block is added to the configuration there is, or to a new one. -/
theorem action_listen (e : Entry) (he : e.kind = .listen) (g : Globals) :
    ∃ p c n b, g.Needs p c n ∧ e.action g =
        { g with
          config := some p
          configs := Function.update g.configs p
            { c with listenblocks := c.listenblocks ++ [g.next] }
          listens := Function.update g.listens g.next b
          curblock := g.next
          next := n } ∧
      b.settings = e.listen ∧ ∀ x ∈ freed b.bindaddr, g.next < x ∧ x < n := by
  obtain ⟨p, c, n, hneeds, hentry⟩ := listenEntry_eq g
  obtain ⟨b, n', hitems, hn', hsay, hstrings⟩ := foldl_written
    (fun b n => Globals.putListen _ b n) ListenSettings.assign e.items
    (fun a ha b n => action_putListen _ b n (he ▸ e.kind_eq a ha)) ⟨none, -1⟩ n
  refine ⟨p, c, n', b, hneeds.mono hn', ?_, hsay, fun x hx => ?_⟩
  · rw [Entry.action, he, EntryKind.action, hentry, hitems]
    rfl
  · rcases hstrings x hx with hx | ⟨hlo, hhi⟩
    · cases hx
    · exact ⟨Nat.lt_of_lt_of_le hneeds.lt hlo, hhi⟩

/-- So is a module block. -/
theorem action_module (e : Entry) (he : e.kind = .module) (g : Globals) :
    ∃ p c n m, g.Needs p c n ∧ e.action g =
        { g with
          config := some p
          configs := Function.update g.configs p
            { c with moduleblocks := c.moduleblocks ++ [g.next] }
          modules := Function.update g.modules g.next m
          curmod := g.next
          next := n } ∧
      m.settings = e.module ∧ ∀ x ∈ freed m.name ++ freed m.path, g.next < x ∧ x < n := by
  obtain ⟨p, c, n, hneeds, hentry⟩ := moduleEntry_eq g
  obtain ⟨m, n', hitems, hn', hsay, hstrings⟩ := foldl_written
    (fun m n => Globals.putModule _ m n) ModuleSettings.assign e.items
    (fun a ha m n => action_putModule _ m n (he ▸ e.kind_eq a ha)) ⟨none, none⟩ n
  refine ⟨p, c, n', m, hneeds.mono hn', ?_, hsay, fun x hx => ?_⟩
  · rw [Entry.action, he, EntryKind.action, hentry, hitems]
    rfl
  · rcases hstrings x hx with hx | ⟨hlo, hhi⟩
    · cases hx
    · exact ⟨Nat.lt_of_lt_of_le hneeds.lt hlo, hhi⟩

/-! ## What the actions of a file make of the settings -/

section

variable {g : Globals} {p : ℕ} {c : Configuration} {n : ℕ}

theorem Globals.Needs.settings (h : g.Needs p c n) :
    g.settings.getD (.defaults (-1)) = g.settingsOf c := by
  rcases h with ⟨hp, rfl, -⟩ | ⟨hp, -, rfl, -⟩ <;> rw [Globals.settings, hp] <;> rfl

/-- Blocks that have been allocated are none of those that will be. -/
theorem Globals.Needs.ne_next (h : g.Needs p c n) (hbelow : g.Below) :
    (∀ b ∈ c.listenblocks, b < g.next) ∧ ∀ m ∈ c.moduleblocks, m < g.next := by
  rcases h with ⟨hp, rfl, -⟩ | ⟨-, -, rfl, -⟩
  · exact hbelow p hp
  · exact ⟨fun b hb => absurd hb List.not_mem_nil, fun m hm => absurd hm List.not_mem_nil⟩

/-- What is said by blocks is not changed by a new one. -/
theorem map_update_of_lt {α β : Type} (heap : ℕ → α) (x : α) (say : α → β) {blocks : List ℕ}
    {next : ℕ} (h : ∀ b ∈ blocks, b < next) :
    blocks.map (fun b => say (Function.update heap next x b)) =
      blocks.map fun b => say (heap b) :=
  List.map_congr_left fun b hb => by rw [Function.update_of_ne (Nat.ne_of_lt (h b hb))]

/-- The actions of a block do what it says. -/
theorem settings_action (e : Entry) (hbelow : g.Below) :
    (e.action g).settings = some (e.apply g.settings) ∧ (e.action g).Below := by
  cases he : e.kind with
  | server =>
    obtain ⟨c, n, haction, -, hsay, ⟨hlistens, hmodules⟩, -⟩ := action_server e he g
    refine ⟨?_, fun p hp => ?_⟩
    · rw [haction, Entry.apply, he]
      simp only [Globals.settings, Option.map_some, Globals.settingsOf, Function.update_self, hsay,
        Settings.mapBlocks_foldl_assign]
      rfl
    · rw [haction] at hp ⊢
      cases hp
      simp [hlistens, hmodules]
  | listen =>
    obtain ⟨p, c, n, b, hneeds, haction, hsay, -⟩ := action_listen e he g
    obtain ⟨hlistens, hmodules⟩ := hneeds.ne_next hbelow
    have hn := hneeds.lt
    refine ⟨?_, fun q hq => ?_⟩
    · -- The new block says what is written, and the others what they said.
      have hmap := map_update_of_lt g.listens b ListenBlock.settings hlistens
      rw [haction, Entry.apply, he, hneeds.settings, ← hsay]
      simp [Globals.settings, Globals.settingsOf, Settings.mapBlocks, Configuration.settings, hmap]
    · rw [haction] at hq ⊢
      cases hq
      simp only [Function.update_self, List.mem_append, List.mem_singleton]
      exact ⟨fun b hb => by grind, fun m hm => by grind⟩
  | module =>
    obtain ⟨p, c, n, m, hneeds, haction, hsay, -⟩ := action_module e he g
    obtain ⟨hlistens, hmodules⟩ := hneeds.ne_next hbelow
    have hn := hneeds.lt
    refine ⟨?_, fun q hq => ?_⟩
    · have hmap := map_update_of_lt g.modules m ConfModule.settings hmodules
      rw [haction, Entry.apply, he, hneeds.settings, ← hsay]
      simp [Globals.settings, Globals.settingsOf, Settings.mapBlocks, Configuration.settings, hmap]
    · rw [haction] at hq ⊢
      cases hq
      simp only [Function.update_self, List.mem_append, List.mem_singleton]
      exact ⟨fun b hb => by grind, fun m hm => by grind⟩

/-- The actions of a file do what its blocks say. -/
theorem settings_fileAction (es : List Entry) (hbelow : g.Below) :
    (fileAction es g).settings = fileApply es g.settings ∧ (fileAction es g).Below := by
  induction es generalizing g with
  | nil => exact ⟨rfl, hbelow⟩
  | cons e es ih =>
    obtain ⟨hsettings, hbelow'⟩ := settings_action e hbelow
    rw [fileAction, List.foldl_cons, fileApply, List.foldl_cons, ← hsettings]
    exact ih hbelow'

theorem below_fresh : Globals.fresh.Below := fun _ hp => by cases hp

end

/-! ## What `ParseConfig` returns -/

/-- The outcomes of `ParseConfig`. -/
inductive ParseOutcome (g : Globals) : Option (List Token) → Except Exit (Int × Globals) → Prop
  /-- The file cannot be opened. -/
  | unreadable : ParseOutcome g none (.ok (1, g))
  /-- The file is not a list of blocks. -/
  | wrong (toks : List Token) (h : ∀ es, toks ≠ fileText es) :
    ParseOutcome g (some toks) (.error .failure)
  /-- The blocks of the file have been read, and leave no directory. -/
  | noDirectory (es : List Entry) (h : ∀ p, (fileAction es g).config = some p →
      ((fileAction es g).configs p).directory = none) :
    ParseOutcome g (some (fileText es)) (.ok (1, fileAction es g))
  /-- The blocks of the file have been read. -/
  | ok (es : List Entry) (p : ℕ) (hp : (fileAction es g).config = some p)
      (h : ((fileAction es g).configs p).directory ≠ none) :
    ParseOutcome g (some (fileText es))
      (.ok (0, (fileAction es g).setConfig Configuration.completed))

theorem parseConfig_fileText (es : List Entry) (g : Globals) :
    parseConfig (some (fileText es)) g = match (fileAction es g).config with
      | none => .ok (1, fileAction es g)
      | some p =>
        if ((fileAction es g).configs p).directory = none then .ok (1, fileAction es g)
        else .ok (0, (fileAction es g).setConfig Configuration.completed) := by
  have hparse := yyparse_iff.2 ⟨es, rfl, (rfl : fileAction es g = _)⟩
  cases hp : (fileAction es g).config with
  | none => simp only [parseConfig, hparse, hp]
  | some p => simp only [parseConfig, hparse, hp]

/-- The blocks of a file are accepted if they leave a directory. -/
theorem parseConfig_fileText_ok_iff {es : List Entry} {g g₁ : Globals} :
    parseConfig (some (fileText es)) g = .ok (0, g₁) ↔
      ∃ p, (fileAction es g).config = some p ∧ ((fileAction es g).configs p).directory ≠ none ∧
        g₁ = (fileAction es g).setConfig Configuration.completed := by
  rw [parseConfig_fileText]
  cases (fileAction es g).config with
  | none => simp
  | some p =>
    by_cases hdir : ((fileAction es g).configs p).directory = none <;>
      simp [hdir, @eq_comm _ g₁]

theorem parseConfig_outcome (file : Option (List Token)) (g : Globals) :
    ParseOutcome g file (parseConfig file g) := by
  cases file with
  | none => exact .unreadable
  | some toks =>
    cases hparse : yyparse toks g with
    | error e =>
      rw [parseConfig, hparse]
      refine .wrong toks fun es hes => ?_
      rw [yyparse_iff.2 ⟨es, hes, rfl⟩] at hparse
      cases hparse
    | ok g' =>
      obtain ⟨es, rfl, rfl⟩ := yyparse_iff.1 hparse
      rw [parseConfig_fileText]
      cases hp : (fileAction es g).config with
      | none =>
        refine .noDirectory es fun p hp' => ?_
        rw [hp] at hp'
        cases hp'
      | some p =>
        dsimp only
        split
        · next hdir =>
          refine .noDirectory es fun p' hp' => ?_
          rw [hp] at hp'
          cases hp'
          exact hdir
        · next hdir => exact .ok es p hp hdir

/-- Completing changes two settings. -/
theorem setConfig_completed {g : Globals} {p : ℕ} (hp : g.config = some p) :
    ∃ c : Configuration, g.setConfig Configuration.completed =
        { g with configs := Function.update g.configs p c } ∧
      c.strings = (g.configs p).strings ∧ c.listenblocks = (g.configs p).listenblocks ∧
      c.moduleblocks = (g.configs p).moduleblocks ∧
      (g.setConfig Configuration.completed).settings = g.settings.map Settings.completed := by
  refine ⟨(g.configs p).completed, by rw [Globals.setConfig, hp], rfl, rfl, rfl, ?_⟩
  simp [Globals.setConfig, Globals.settings, hp, Globals.settingsOf, Settings.mapBlocks,
    Configuration.settings, Configuration.completed, Settings.completed]

end Nbstftp
