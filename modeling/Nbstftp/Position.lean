import Nbstftp.Settings

/-!
# The position of the server block

A file says the same in whatever order its blocks stand (`whole`), but a server block makes
a new configuration, and what came before it is lost: a file with one server block is read
as a whole if and only if it starts with it (`reads_whole_iff`).
-/

namespace Nbstftp

/-- The listen blocks of a file, in order. -/
def listenBlocks (es : List Entry) : List ListenSettings :=
  (es.filter (·.kind = .listen)).map Entry.listen

/-- The module blocks of a file, in order. -/
def moduleBlocks (es : List Entry) : List ModuleSettings :=
  (es.filter (·.kind = .module)).map Entry.module

/-- A server block, and all other blocks of the file. -/
def whole (server : Entry) (es : List Entry) : FileSettings :=
  { server.server with listens := listenBlocks es, modules := moduleBlocks es }

/-- The settings, completed if they have a directory. -/
def Settings.checked (s : FileSettings) : FileSettings :=
  if s.directory = none then s else s.completed

/-- From a fresh start, the file with a server block between other blocks makes a
    configuration with all settings of the server block, and all the blocks. -/
def ReadsWhole (before : List Entry) (server : Entry) (after : List Entry) : Prop :=
  ∃ r ∈ (parseConfig (some (fileText (before ++ server :: after))) .fresh).toOption,
    r.2.settings = some (whole server (before ++ after)).checked

/-! ## Reading blocks -/

/-- The configuration made of a file is what its blocks say, checked. -/
theorem parseConfig_settings (es : List Entry) {g : Globals} (hbelow : g.Below) :
    ∃ ret g', parseConfig (some (fileText es)) g = .ok (ret, g') ∧
      g'.settings = (fileApply es g.settings).map Settings.checked := by
  obtain ⟨hsettings, -⟩ := settings_fileAction es hbelow
  rw [parseConfig_fileText, ← hsettings]
  cases hp : (fileAction es g).config with
  | none => exact ⟨1, _, rfl, by rw [Globals.settings, hp]; rfl⟩
  | some p =>
    have hdirectory : ((fileAction es g).settingsOf ((fileAction es g).configs p)).directory =
        none ↔ ((fileAction es g).configs p).directory = none := Option.map_eq_none_iff
    have hs : (fileAction es g).settings =
        some ((fileAction es g).settingsOf ((fileAction es g).configs p)) := by
      rw [Globals.settings, hp]
      rfl
    by_cases hdir : ((fileAction es g).configs p).directory = none
    · refine ⟨1, fileAction es g, if_pos hdir, ?_⟩
      rw [hs, Option.map_some, Settings.checked, if_pos (hdirectory.2 hdir)]
    · obtain ⟨-, -, -, -, -, hcompleted⟩ := setConfig_completed hp
      refine ⟨0, _, if_neg hdir, ?_⟩
      rw [hcompleted, hs, Option.map_some, Option.map_some, Settings.checked,
        if_neg (fun h => hdir (hdirectory.1 h))]

/-- Blocks that are no server blocks are added to the settings. -/
theorem fileApply_some {es : List Entry} (hes : ∀ e ∈ es, e.kind ≠ .server) (s : FileSettings) :
    fileApply es (some s) = some { s with
      listens := s.listens ++ listenBlocks es, modules := s.modules ++ moduleBlocks es } := by
  induction es generalizing s with
  | nil => simp [fileApply, listenBlocks, moduleBlocks]
  | cons e es ih =>
    rw [fileApply, List.foldl_cons]
    refine (ih (fun e he => hes e (List.mem_cons_of_mem _ he)) _).trans ?_
    cases hkind : e.kind with
    | server => exact absurd hkind (hes e List.mem_cons_self)
    | listen => simp [Entry.apply, hkind, listenBlocks, moduleBlocks]
    | module => simp [Entry.apply, hkind, listenBlocks, moduleBlocks]

/-- What is read of a file: the server block, and the blocks after it. -/
theorem fileApply_server (before : List Entry) {server : Entry} (hserver : server.kind = .server)
    {after : List Entry} (hafter : ∀ e ∈ after, e.kind ≠ .server) (s : Option FileSettings) :
    fileApply (before ++ server :: after) s = some (whole server after) := by
  obtain ⟨hlistens, hmodules⟩ :=
    Settings.foldl_assign_blocks (.defaults 1 : FileSettings) server.items
  have happly : server.apply (fileApply before s) = server.server := by
    rw [Entry.apply, hserver]
  rw [fileApply, List.foldl_append, List.foldl_cons]
  refine (fileApply_some hafter _).trans ?_
  rw [← fileApply, happly, whole, Entry.server, hlistens, hmodules]
  rfl

/-! ## What is lost -/

/-- What is completed are no blocks. -/
theorem Settings.checked_blocks (s : FileSettings) :
    s.checked.listens = s.listens ∧ s.checked.modules = s.modules := by
  rw [checked]
  split <;> exact ⟨rfl, rfl⟩

/-- Files that have the same blocks but for some more in front have no more of them only if
    these are none. -/
theorem eq_nil_of_blocks {before after : List Entry} (hbefore : ∀ e ∈ before, e.kind ≠ .server)
    (hlistens : listenBlocks after = listenBlocks (before ++ after))
    (hmodules : moduleBlocks after = moduleBlocks (before ++ after)) : before = [] := by
  rw [listenBlocks, listenBlocks, List.filter_append, List.map_append, List.self_eq_append_left,
    List.map_eq_nil_iff, List.filter_eq_nil_iff] at hlistens
  rw [moduleBlocks, moduleBlocks, List.filter_append, List.map_append, List.self_eq_append_left,
    List.map_eq_nil_iff, List.filter_eq_nil_iff] at hmodules
  refine List.eq_nil_iff_forall_not_mem.2 fun e he => ?_
  cases hkind : e.kind with
  | server => exact hbefore e he hkind
  | listen => exact hlistens e he (by simp [hkind])
  | module => exact hmodules e he (by simp [hkind])

/-- A file with one server block is read as a whole if and only if it starts with it. -/
theorem reads_whole_iff (before : List Entry) (server : Entry) (after : List Entry)
    (hserver : server.kind = .server) (hbefore : ∀ e ∈ before, e.kind ≠ .server)
    (hafter : ∀ e ∈ after, e.kind ≠ .server) : ReadsWhole before server after ↔ before = [] := by
  obtain ⟨ret, g', hparse, hsettings⟩ :=
    parseConfig_settings (before ++ server :: after) below_fresh
  rw [fileApply_server before hserver hafter, Option.map_some] at hsettings
  have hreads : ReadsWhole before server after ↔
      (whole server after).checked = (whole server (before ++ after)).checked := by
    rw [ReadsWhole, hparse]
    simp [Except.toOption, hsettings]
  rw [hreads]
  constructor
  · intro h
    have hlistens := congrArg Settings.listens h
    have hmodules := congrArg Settings.modules h
    rw [(Settings.checked_blocks _).1, (Settings.checked_blocks _).1] at hlistens
    rw [(Settings.checked_blocks _).2, (Settings.checked_blocks _).2] at hmodules
    exact eq_nil_of_blocks hbefore hlistens hmodules
  · rintro rfl
    rfl

theorem reads_whole_serverBlock : ReadsWhole [] Sample.serverBlock [Sample.listenBlock] :=
  (reads_whole_iff [] Sample.serverBlock [Sample.listenBlock] rfl (by simp) (by decide)).2 rfl

/-- A listen block in front of the server block is lost. -/
theorem not_reads_whole : ¬∀ before server after, server.kind = .server →
    (∀ e ∈ before, e.kind ≠ .server) → (∀ e ∈ after, e.kind ≠ .server) →
      ReadsWhole before server after := by
  intro h
  obtain ⟨r, hr, hsettings⟩ :=
    h [Sample.listenBlock] Sample.serverBlock [] rfl (by decide) (by simp)
  have hlost : ∀ r ∈ (parseConfig (some (fileText [Sample.listenBlock, Sample.serverBlock]))
      .fresh).toOption, (r.2.settings.map Settings.listens) = some [] := by
    decide
  have hlistens := hlost r hr
  rw [hsettings] at hlistens
  exact absurd hlistens (by decide)

end Nbstftp
