import Nbstftp.Settings
import Mathlib.Data.List.TakeWhile

/-!
# Numbers in the configuration

A number is written as a string of digits of any length (`Literal`), which the scanner turns into
an `int` (`atoi`). A port then becomes a `short`, of which `-1` says that none was given
(`ListenSettings.bound`), and a timeout an `int` of milliseconds (`epollTimeout`).

Each of these narrows the number: a port takes effect as written if it is less than 65535, as
65535 is taken for none, and a timeout if it is corrected or is at most 2147483 seconds. A number
has no effect if it is overridden, or stands in front of the server block (`takesEffect_iff`).
-/

namespace Nbstftp

/-! ## Literals -/

/-- A number as it is written. -/
structure Literal where
  digits : Bytes
  nonempty : digits ≠ []
  isdigit : ∀ b ∈ digits, isdigit b = true

/-- The number at which a string of digits stands. -/
def Literal.value (s : Literal) : ℕ := s.digits.foldl (fun n b => n * 10 + (b.toNat - 48)) 0

/-- `atoi`: the `long` that `strtol` reads, as an `int`. -/
def atoi (s : Bytes) : Int := (strtol s).1.bmod UInt32.size

/-- The number an `int` is left with: a `long` is clamped, and cut. -/
def narrowed (n : ℕ) : Int := Int.bmod (min (n : Int) Int64.maxValue.toInt) UInt32.size

/-- A digit is no space and no sign. -/
theorem of_isdigit {b : UInt8} (h : isdigit b = true) :
    isspace b = false ∧ b ≠ 45 ∧ b ≠ 43 := by
  have hb : 48 ≤ b.toNat ∧ b.toNat ≤ 57 := by
    simpa [isdigit, UInt8.le_iff_toNat_le] using h
  refine ⟨?_, ?_, ?_⟩
  · simp only [isspace, Bool.or_eq_false_iff, beq_eq_false_iff_ne, Bool.and_eq_false_iff,
      decide_eq_false_iff_not, UInt8.le_iff_toNat_le, UInt8.reduceToNat]
    exact ⟨fun h => by subst h; simp at hb, .inr (by omega)⟩
  · rintro rfl
    simp at hb
  · rintro rfl
    simp at hb

theorem atoi_digits (s : Literal) : atoi s.digits = narrowed s.value := by
  obtain ⟨b, rest, hcons⟩ := List.exists_cons_of_ne_nil s.nonempty
  obtain ⟨hspace, hminus, hplus⟩ := of_isdigit (s.isdigit b (hcons ▸ List.mem_cons_self))
  have hdrop : s.digits.dropWhile isspace = s.digits := by
    rw [hcons, List.dropWhile_cons_of_neg (by simp [hspace])]
  have hhead : s.digits.head? = some b := by rw [hcons, List.head?_cons]
  have hdigits : s.digits.takeWhile isdigit = s.digits :=
    List.takeWhile_eq_self_iff.2 s.isdigit
  have hmin : Int64.minValue.toInt = -9223372036854775808 := by decide
  have hmax : Int64.maxValue.toInt = 9223372036854775807 := by decide
  have hread : (strtol s.digits).1 = min (s.value : Int) Int64.maxValue.toInt := by
    rw [strtol, hdrop, hhead, hmin, hmax]
    simp only [Option.some.injEq, hminus, hplus, or_self, if_false, hdigits, Int.one_mul]
    rw [← Literal.value]
    split_ifs <;> dsimp only <;> omega
  rw [atoi, hread, narrowed]

/-! ## Where the numbers go -/

/-- The address and the port `InitializeSockets` binds a block to: what is given, or else the
    defaults. A `short` is an unsigned port in the address. -/
def ListenSettings.bound (b : ListenSettings) : Bytes × UInt16 :=
  (b.bindaddr.getD (ascii "::"), UInt16.ofInt (if b.port = -1 then 69 else b.port))

/-- The milliseconds `epoll_wait` is called with, unless the product overflows. -/
def epollTimeout (readtimeout : Int) : Option Int :=
  if Int32.minValue.toInt ≤ readtimeout * 1000 ∧ readtimeout * 1000 ≤ Int32.maxValue.toInt then
    some (readtimeout * 1000)
  else none

/-- What `ParseConfig` prints of the timeout. -/
def timeoutStderr (toks : List Token) (g : Globals) : Bytes :=
  match yyparse toks g with
  | .error _ => []
  | .ok g =>
    match g.config with
    | none => []
    | some p =>
      if (g.configs p).directory ≠ none ∧ (g.configs p).readtimeout < 2 then
        ascii "Error: Read Timeout time can be no less than 1 second! Setting to default of 5.\n"
      else []

namespace Globals

/-- The blocks of the configuration, with what is passed to `bind` for each. -/
def bindings (g : Globals) : List (ℕ × Bytes × UInt16) :=
  match g.config with
  | none => []
  | some p => (g.configs p).listenblocks.map fun b => (b, (g.listens b).settings.bound)

/-- The timeout of `ProcessSockets`. -/
def waitTimeout (g : Globals) : Option Int :=
  g.config.bind fun p => epollTimeout (g.configs p).readtimeout

/-- The block is bound to a port. -/
def BoundTo (g : Globals) (b n : ℕ) : Prop := ∃ addr, (b, addr) ∈ g.bindings ∧ addr.2.toNat = n

theorem boundTo_iff {g : Globals} {p : ℕ} (hp : g.config = some p) {b n : ℕ} :
    g.BoundTo b n ↔ b ∈ (g.configs p).listenblocks ∧ (g.listens b).settings.bound.2.toNat = n := by
  simp only [BoundTo, bindings, hp, List.mem_map, Prod.mk.injEq]
  constructor
  · rintro ⟨-, ⟨b, hb, rfl, rfl⟩, hn⟩
    exact ⟨hb, hn⟩
  · exact fun ⟨hb, hn⟩ => ⟨_, ⟨b, hb, rfl, rfl⟩, hn⟩

/-! ## Blocks in the configuration -/

/-- Blocks that are no server blocks have been read: the configuration has those it had, and new
    ones, and those there were say what they said. -/
structure Extends (g g' : Globals) (p : ℕ) : Prop where
  config : g'.config = some p
  next_le : g.next ≤ g'.next
  kept : ∀ b ∈ (g.configs p).listenblocks, b ∈ (g'.configs p).listenblocks
  new : ∀ b ∈ (g'.configs p).listenblocks, b ∈ (g.configs p).listenblocks ∨ g.next ≤ b
  listens : ∀ b < g.next, g'.listens b = g.listens b
  readtimeout : (g'.configs p).readtimeout = (g.configs p).readtimeout
  directory : (g'.configs p).directory = (g.configs p).directory

variable {g g' g'' : Globals} {p : ℕ}

theorem Extends.refl (hp : g.config = some p) : g.Extends g p :=
  ⟨hp, le_rfl, fun _ => id, fun _ => .inl, fun _ _ => rfl, rfl, rfl⟩

theorem Extends.trans (h : g.Extends g' p) (h' : g'.Extends g'' p) : g.Extends g'' p where
  config := h'.config
  next_le := h.next_le.trans h'.next_le
  kept b hb := h'.kept b (h.kept b hb)
  new b hb := (h'.new b hb).elim (h.new b) fun hnew => .inr (h.next_le.trans hnew)
  listens b hb := (h'.listens b (hb.trans_le h.next_le)).trans (h.listens b hb)
  readtimeout := h'.readtimeout.trans h.readtimeout
  directory := h'.directory.trans h.directory

end Globals

section

variable {g : Globals} {p : ℕ}

theorem action_next_lt (e : Entry) (g : Globals) : g.next < (e.action g).next := by
  cases he : e.kind with
  | server =>
    obtain ⟨c, n, haction, hn, -⟩ := action_server e he g
    rwa [haction]
  | listen =>
    obtain ⟨p, c, n, b, hneeds, haction, -⟩ := action_listen e he g
    rw [haction]
    exact hneeds.lt
  | module =>
    obtain ⟨p, c, n, m, hneeds, haction, -⟩ := action_module e he g
    rw [haction]
    exact hneeds.lt

theorem fileAction_next_le (es : List Entry) (g : Globals) : g.next ≤ (fileAction es g).next := by
  induction es generalizing g with
  | nil => exact le_rfl
  | cons e es ih => exact (action_next_lt e g).le.trans (ih (e.action g))

/-- A block in a configuration. -/
theorem action_extends (e : Entry) (he : e.kind ≠ .server) (hp : g.config = some p) :
    g.Extends (e.action g) p := by
  have hneeds_some {q c n} (hneeds : g.Needs q c n) : q = p ∧ c = g.configs p := by
    rcases hneeds with ⟨hq, rfl, -⟩ | ⟨hnone, -⟩
    · cases hp.symm.trans hq
      exact ⟨rfl, rfl⟩
    · cases hp.symm.trans hnone
  cases hkind : e.kind with
  | server => exact absurd hkind he
  | listen =>
    obtain ⟨q, c, n, b, hneeds, haction, -⟩ := action_listen e hkind g
    obtain ⟨rfl, rfl⟩ := hneeds_some hneeds
    rw [haction]
    constructor
    case config => rfl
    case next_le => exact hneeds.lt.le
    case kept => simp +contextual
    case new =>
      simp only [Function.update_self, List.mem_append, List.mem_singleton]
      exact fun b hb => hb.imp_right fun h => h.ge
    case listens => exact fun b hb => Function.update_of_ne hb.ne _ _
    case readtimeout => simp
    case directory => simp
  | module =>
    obtain ⟨q, c, n, m, hneeds, haction, -⟩ := action_module e hkind g
    obtain ⟨rfl, rfl⟩ := hneeds_some hneeds
    rw [haction]
    constructor
    case config => rfl
    case next_le => exact hneeds.lt.le
    case kept => simp
    case new => simp +contextual
    case listens => exact fun b hb => rfl
    case readtimeout => simp
    case directory => simp

theorem fileAction_extends (es : List Entry) (hes : ∀ e ∈ es, e.kind ≠ .server)
    (hp : g.config = some p) : g.Extends (fileAction es g) p := by
  induction es generalizing g with
  | nil => exact .refl hp
  | cons e es ih =>
    have he := action_extends e (hes e List.mem_cons_self) hp
    exact he.trans (ih (fun e he => hes e (List.mem_cons_of_mem _ he)) he.config)

/-- A listen block is in the configuration, and says what is written. -/
theorem action_listen_mem (e : Entry) (he : e.kind = .listen) (hp : g.config = some p) :
    g.next ∈ ((e.action g).configs p).listenblocks ∧
      ((e.action g).listens g.next).settings = e.listen := by
  obtain ⟨q, c, n, b, hneeds, haction, hsay, -⟩ := action_listen e he g
  rcases hneeds with ⟨hq, rfl, -⟩ | ⟨hnone, -⟩
  · cases hp.symm.trans hq
    rw [haction]
    simp [hsay]
  · cases hp.symm.trans hnone

end

/-! ## Blocks as they are written -/

/-- An item, with its number as it is written. -/
inductive SourceItem
  | port (s : Literal)
  | readtimeout (s : Literal)
  | other (a : Assignment) (h : a.item ≠ .port ∧ a.item ≠ .readtimeout)

namespace SourceItem

def assignment : SourceItem → Assignment
  | .port s => .port (atoi s.digits)
  | .readtimeout s => .readtimeout (atoi s.digits)
  | .other a _ => a

/-- The port that is written, if it is one. -/
def port? : SourceItem → Option Literal
  | .port s => some s
  | _ => none

def readtimeout? : SourceItem → Option Literal
  | .readtimeout s => some s
  | _ => none

/-- Only a port changes the port. -/
theorem assign_port (b : ListenSettings) (w : SourceItem) : (b.assign w.assignment).port =
    (w.port?.map fun s => (atoi s.digits).bmod UInt16.size).getD b.port := by
  cases w with
  | port s => rfl
  | readtimeout s => rfl
  | other a h => cases a <;> first | rfl | exact absurd rfl h.1

theorem assign_readtimeout (s : FileSettings) (w : SourceItem) :
    (s.assign w.assignment).readtimeout =
      (w.readtimeout?.map fun s => atoi s.digits).getD s.readtimeout := by
  cases w with
  | port s => rfl
  | readtimeout s => rfl
  | other a h => cases a <;> first | rfl | exact absurd rfl h.2

end SourceItem

/-- A block, with its numbers as they are written. -/
structure SourceEntry where
  kind : EntryKind
  items : List SourceItem
  kind_eq : ∀ w ∈ items, w.assignment.item.kind = kind

/-- Of updates one after the other, the last one that sets a field sets it. -/
theorem foldl_field {σ α β : Type*} (f : σ → α → σ) (get : σ → β) (set : α → Option β)
    (h : ∀ s a, get (f s a) = (set a).getD (get s)) (l : List α) (s : σ) :
    get (l.foldl f s) = (l.filterMap set).getLast?.getD (get s) := by
  induction l generalizing s with
  | nil => rfl
  | cons a l ih =>
    rw [List.foldl_cons, ih, h]
    cases hset : set a with
    | none => rw [List.filterMap_cons_none hset, Option.getD_none]
    | some b => rw [List.filterMap_cons_some hset, List.getLast?_cons, Option.getD_some,
        Option.getD_some]

namespace SourceEntry

variable (e : SourceEntry)

def entry : Entry where
  kind := e.kind
  items := e.items.map SourceItem.assignment
  kind_eq a ha := by
    obtain ⟨w, hw, rfl⟩ := List.mem_map.1 ha
    exact e.kind_eq w hw

/-- The ports that are written, of which the last one counts. -/
def ports : List Literal := e.items.filterMap SourceItem.port?

def readtimeouts : List Literal := e.items.filterMap SourceItem.readtimeout?

/-- The seconds that are written, or else the default. -/
def seconds : ℕ := (e.readtimeouts.getLast?.map Literal.value).getD 5

theorem listen_port : e.entry.listen.port =
    (e.ports.getLast?.map fun s => (atoi s.digits).bmod UInt16.size).getD (-1) := by
  rw [Entry.listen, entry, List.foldl_map,
    foldl_field _ ListenSettings.port _ SourceItem.assign_port, ports, ← List.getLast?_map,
    List.map_filterMap]

theorem server_readtimeout : e.entry.server.readtimeout = narrowed e.seconds := by
  have hlast : e.entry.server.readtimeout =
      (e.readtimeouts.getLast?.map fun s => atoi s.digits).getD 5 := by
    rw [Entry.server, entry, List.foldl_map,
      foldl_field _ Settings.readtimeout _ SourceItem.assign_readtimeout, readtimeouts,
      ← List.getLast?_map, List.map_filterMap]
    rfl
  rw [hlast, seconds]
  cases e.readtimeouts.getLast? with
  | none => decide
  | some s => exact atoi_digits s

/-- Ports stand in listen blocks. -/
theorem kind_of_port {s : Literal} (hs : s ∈ e.ports) : e.kind = .listen := by
  obtain ⟨w, hw, hport⟩ := List.mem_filterMap.1 hs
  rw [← e.kind_eq w hw]
  cases w with
  | port s => rfl
  | readtimeout s => cases hport
  | other a h => cases hport

end SourceEntry

/-! ## What takes effect -/

/-- The port an address gets for a number: 65535 is read as `-1`, i.e., as no port. -/
theorem port_eq_iff (n : ℕ) :
    (UInt16.ofInt (if (narrowed n).bmod UInt16.size = -1 then 69
      else (narrowed n).bmod UInt16.size)).toNat = n ↔ n < 65535 := by
  have hmax : Int64.maxValue.toInt = 9223372036854775807 := by decide
  have hnarrowed : (narrowed n).bmod UInt16.size =
      Int.bmod (min (n : Int) 9223372036854775807) 65536 := by
    rw [narrowed, hmax]
    exact Int.bmod_bmod_of_dvd (by decide)
  have htoNat (p : Int) : (UInt16.ofInt p).toNat = (p % 65536).toNat := by
    rw [UInt16.ofInt, UInt16.toNat_ofNat']
    omega
  rw [hnarrowed, htoNat, Int.bmod_def]
  split_ifs <;> omega

/-- A number that an `int` can hold is left as it is. -/
theorem narrowed_of_lt {n : ℕ} (h : n < 2147483648) : narrowed n = n := by
  have hmax : Int64.maxValue.toInt = 9223372036854775807 := by decide
  have hsize : UInt32.size = 4294967296 := rfl
  rw [narrowed, hmax, hsize, Int.bmod_def]
  split_ifs <;> omega

/-- The numbers whose milliseconds are waited for. -/
theorem epollTimeout_eq_iff {t : Int} (ht : 2 ≤ t) (n : ℕ) :
    epollTimeout t = some ((n : Int) * 1000) ↔ n ≤ 2147483 ∧ t = n := by
  have hint : Int32.minValue.toInt = -2147483648 ∧ Int32.maxValue.toInt = 2147483647 := by decide
  rw [epollTimeout, hint.1, hint.2]
  split_ifs with hfits
  · rw [Option.some.injEq]
    omega
  · exact iff_of_false id fun hn => hfits (by omega)

/-- The blocks of a file are split at the last server block. -/
structure LastServer (es before : List SourceEntry) (server : SourceEntry)
    (after : List SourceEntry) : Prop where
  eq : es = before ++ server :: after
  server : server.kind = .server
  after : ∀ e ∈ after, e.kind ≠ .server

/-- The actions of blocks from a fresh start. -/
def sourceAction (es : List SourceEntry) : Globals := fileAction (es.map SourceEntry.entry) .fresh

def sourceText (es : List SourceEntry) : List Token := fileText (es.map SourceEntry.entry)

/-- What is allocated for the block behind other blocks. -/
def blockAfter (es : List SourceEntry) : ℕ := (sourceAction es).next

/-- Unless the file is rejected: every port that is written is the one the block is bound to, and
    every timeout that is written is waited for, or corrected with a message. -/
structure TakesEffect (es : List SourceEntry) : Prop where
  ports : ∀ g, parseConfig (some (sourceText es)) .fresh = .ok (0, g) →
    ∀ es₁ e es₂, es = es₁ ++ e :: es₂ → ∀ s ∈ e.ports, g.BoundTo (blockAfter es₁) s.value
  timeout : ∀ g, parseConfig (some (sourceText es)) .fresh = .ok (0, g) →
    ∀ e ∈ es, ∀ s ∈ e.readtimeouts, timeoutStderr (sourceText es) .fresh ≠ [] ∨
      g.waitTimeout = some (s.value * 1000)

section

variable {es before after : List SourceEntry} {server : SourceEntry} {g : Globals}

/-- What the action of a server block makes: a configuration of its own, without blocks, that says
    what the server block says. -/
theorem action_installs (e : SourceEntry) (he : e.kind = .server) (g : Globals) :
    (e.entry.action g).config = some g.next ∧
      ((e.entry.action g).configs g.next).listenblocks = [] ∧
      ((e.entry.action g).configs g.next).readtimeout = narrowed e.seconds ∧
      (((e.entry.action g).configs g.next).directory = none ↔
        e.entry.server.directory = none) := by
  obtain ⟨c, n, haction, -, hsay, ⟨hlistens, -⟩, -⟩ := action_server e.entry he g
  have hc : (e.entry.action g).configs g.next = c := by
    rw [haction]
    exact Function.update_self ..
  have hsettings : c.settings.mapBlocks (fun _ => ⟨none, -1⟩) (fun _ => ⟨none, none⟩) =
      e.entry.server := by
    rw [hsay, Settings.mapBlocks_foldl_assign]
    rfl
  have hdir : c.directory.map HeapString.text = e.entry.server.directory :=
    congrArg Settings.directory hsettings
  rw [hc]
  refine ⟨by rw [haction], hlistens, ?_, by rw [← hdir, Option.map_eq_none_iff]⟩
  rw [← e.server_readtimeout]
  exact congrArg Settings.readtimeout hsettings

/-- What the actions of a file make, from its last server block on. -/
theorem sourceAction_lastServer (h : LastServer es before server after) :
    ∃ g₁ p, g₁ = sourceAction (before ++ [server]) ∧ p = (sourceAction before).next ∧
      g₁.Extends (sourceAction es) p ∧ p < g₁.next ∧ (g₁.configs p).listenblocks = [] ∧
      ((sourceAction es).configs p).readtimeout = narrowed server.seconds ∧
      (((sourceAction es).configs p).directory = none ↔ server.entry.server.directory = none) := by
  obtain ⟨hconfig, hlistens, hread, hdirectory⟩ :=
    action_installs server h.server (sourceAction before)
  have hserver : sourceAction (before ++ [server]) =
      server.entry.action (sourceAction before) := by
    simp [sourceAction, fileAction]
  have hes : sourceAction es =
      fileAction (after.map SourceEntry.entry) (server.entry.action (sourceAction before)) := by
    simp [sourceAction, fileAction, h.eq]
  have hafter : ∀ e ∈ after.map SourceEntry.entry, e.kind ≠ .server := by
    intro e he
    obtain ⟨e, he', rfl⟩ := List.mem_map.1 he
    exact h.after e he'
  have hextends := fileAction_extends _ hafter hconfig
  rw [← hes] at hextends
  refine ⟨_, _, hserver.symm, rfl, hextends, action_next_lt _ _, hlistens, ?_, ?_⟩
  · rw [hextends.readtimeout, hread]
  · rw [hextends.directory, hdirectory]

/-- What is read of a file that is not rejected, and what is printed of its timeout. -/
theorem parseConfig_sourceText
    (h : parseConfig (some (sourceText es)) .fresh = .ok (0, g)) :
    ∃ p, (sourceAction es).config = some p ∧ ((sourceAction es).configs p).directory ≠ none ∧
      (∀ b n, g.BoundTo b n ↔ (sourceAction es).BoundTo b n) ∧
      (timeoutStderr (sourceText es) .fresh ≠ [] ↔ ((sourceAction es).configs p).readtimeout < 2) ∧
      (2 ≤ ((sourceAction es).configs p).readtimeout →
        g.waitTimeout = epollTimeout ((sourceAction es).configs p).readtimeout) := by
  obtain ⟨p, hp, hdir, rfl⟩ := parseConfig_fileText_ok_iff.1 h
  have hparse := yyparse_iff.2 ⟨es.map SourceEntry.entry, rfl, (rfl : fileAction _ .fresh = _)⟩
  rw [← sourceAction] at hp hdir hparse ⊢
  have hconfig : ((sourceAction es).setConfig Configuration.completed).config = some p := by
    rw [Globals.setConfig, hp]
  refine ⟨p, hp, hdir, fun b n => ?_, ?_, fun hlong => ?_⟩
  · rw [Globals.boundTo_iff hp, Globals.boundTo_iff hconfig]
    simp [Globals.setConfig, hp, Configuration.completed]
  · simp only [timeoutStderr, sourceText, hparse, hp, hdir, ne_eq, not_false_eq_true, true_and]
    split_ifs with hshort
    · exact iff_of_true (by decide) hshort
    · exact iff_of_false (fun h => h rfl) hshort
  · have hcompleted : ((sourceAction es).setConfig Configuration.completed).configs p =
        ((sourceAction es).configs p).completed := by
      simp [Globals.setConfig, hp]
    rw [Globals.waitTimeout, hconfig, Option.bind_some, hcompleted, Configuration.completed]
    dsimp only
    rw [if_neg (Int.not_lt.2 hlong)]

/-- Blocks that are no server blocks name no directory. -/
theorem directory_fileApply {es : List Entry} (hes : ∀ e ∈ es, e.kind ≠ .server)
    {s : Option FileSettings} (hs : ∀ x ∈ s, x.directory = none) :
    ∀ x ∈ fileApply es s, x.directory = none := by
  induction es generalizing s with
  | nil => exact hs
  | cons e es ih =>
    refine ih (fun e he => hes e (List.mem_cons_of_mem _ he)) fun x hx => ?_
    have hdefault : (s.getD (.defaults (-1))).directory = none := by
      cases s with
      | none => rfl
      | some x => exact hs x rfl
    cases hx
    cases hkind : e.kind with
    | server => exact absurd hkind (hes e List.mem_cons_self)
    | listen => simpa only [Entry.apply, hkind] using hdefault
    | module => simpa only [Entry.apply, hkind] using hdefault

/-- Blocks have a last server block, if they have one. -/
theorem exists_lastServer_of_mem (h : ∃ e ∈ es, e.kind = .server) :
    ∃ before server after, LastServer es before server after := by
  induction es with
  | nil =>
    obtain ⟨e, he, -⟩ := h
    cases he
  | cons e es ih =>
    by_cases hes : ∃ e ∈ es, e.kind = .server
    · obtain ⟨before, server, after, h⟩ := ih hes
      exact ⟨e :: before, server, after, congrArg (e :: ·) h.eq, h.server, h.after⟩
    · have hafter : ∀ e ∈ es, e.kind ≠ .server := fun e he hserver => hes ⟨e, he, hserver⟩
      obtain ⟨e', he', hserver⟩ := h
      rcases List.mem_cons.1 he' with rfl | he'
      · exact ⟨[], e', es, rfl, hserver, hafter⟩
      · exact absurd hserver (hafter e' he')

/-- A file without a server block is rejected. -/
theorem exists_lastServer (h : parseConfig (some (sourceText es)) .fresh = .ok (0, g)) :
    ∃ before server after, LastServer es before server after := by
  obtain ⟨p, hp, hdir, -⟩ := parseConfig_sourceText h
  by_contra hno
  have hes : ∀ e ∈ es.map SourceEntry.entry, e.kind ≠ .server := by
    intro e he hserver
    obtain ⟨e, he', rfl⟩ := List.mem_map.1 he
    exact hno (exists_lastServer_of_mem ⟨e, he', hserver⟩)
  obtain ⟨hsettings, -⟩ := settings_fileAction (es.map SourceEntry.entry) below_fresh
  have hnone := directory_fileApply (s := Globals.fresh.settings) hes (fun x hx => by cases hx)
    ((sourceAction es).settingsOf ((sourceAction es).configs p))
    (by rw [← hsettings, ← sourceAction, Globals.settings, hp]; rfl)
  exact hdir (Option.map_eq_none_iff.1 hnone)

/-! ## The ports -/

/-- A block whose port is written binds to it if it is less than 65535. -/
theorem SourceEntry.bound_port {e : SourceEntry} {s : Literal} (hs : e.ports.getLast? = some s) :
    e.entry.listen.bound.2.toNat = s.value ↔ s.value < 65535 := by
  have hport : e.entry.listen.port = (narrowed s.value).bmod UInt16.size := by
    rw [e.listen_port, hs, Option.map_some, Option.getD_some, atoi_digits]
  rw [← port_eq_iff, ListenSettings.bound, hport]

/-- The ports of a block that all are the one it is bound to. -/
theorem SourceEntry.bound_ports_iff (e : SourceEntry) :
    (∀ s ∈ e.ports, e.entry.listen.bound.2.toNat = s.value) ↔
      ∀ s ∈ e.ports, s.value < 65535 ∧ ∀ s' ∈ e.ports, s'.value = s.value := by
  cases hlast : e.ports.getLast? with
  | none => simp [List.getLast?_eq_none_iff.1 hlast]
  | some last =>
    have hmem : last ∈ e.ports := List.mem_of_getLast? hlast
    have hbound := e.bound_port hlast
    constructor
    · intro h s hs
      have hs' := h s hs
      refine ⟨?_, fun s' hs'' => (h s' hs'').symm.trans hs'⟩
      rw [← hs', h last hmem]
      exact hbound.1 (h last hmem)
    · intro h s hs
      rw [hbound.2 (h last hmem).1]
      exact (h s hs).2 last hmem

/-- A block in front of the server block is not bound. -/
theorem not_boundTo_before {es₁ es₂ : List SourceEntry} {e : SourceEntry}
    (h : LastServer es (es₁ ++ e :: es₂) server after) (n : ℕ) :
    ¬(sourceAction es).BoundTo (blockAfter es₁) n := by
  obtain ⟨g₁, p, -, hp, hextends, hlt, hblocks, -⟩ := sourceAction_lastServer h
  rw [Globals.boundTo_iff hextends.config]
  rintro ⟨hb, -⟩
  have hold : blockAfter es₁ ≤ p := by
    rw [hp, sourceAction, List.map_append, fileAction_append]
    exact fileAction_next_le _ _
  -- All blocks of the configuration were allocated after its server block.
  rcases hextends.new _ hb with hb | hb
  · rw [hblocks] at hb
    cases hb
  · omega

/-- A listen block behind the server block is bound to what it says. -/
theorem boundTo_after {es₁ es₂ : List SourceEntry} {e : SourceEntry}
    (h : LastServer es before server (es₁ ++ e :: es₂)) (hlisten : e.kind = .listen) (n : ℕ) :
    (sourceAction es).BoundTo (blockAfter (before ++ server :: es₁)) n ↔
      e.entry.listen.bound.2.toNat = n := by
  have hfront : LastServer (before ++ server :: es₁) before server es₁ :=
    ⟨rfl, h.server, fun e he => h.after e (List.mem_append_left _ he)⟩
  obtain ⟨g₁, p, -, -, hprefix, -⟩ := sourceAction_lastServer hfront
  have hblock := action_extends e.entry (h.after e (by simp)) hprefix.config
  have hrest := fileAction_extends (es₂.map SourceEntry.entry) (fun e he => by
    obtain ⟨e, he', rfl⟩ := List.mem_map.1 he
    exact h.after e (by simp [he'])) hblock.config
  -- The block is added to the configuration, and what comes after it leaves it as it is.
  have hes : fileAction (es₂.map SourceEntry.entry)
      (e.entry.action (sourceAction (before ++ server :: es₁))) = sourceAction es := by
    simp [sourceAction, fileAction, h.eq]
  rw [hes] at hrest
  obtain ⟨hmem, hsay⟩ := action_listen_mem e.entry hlisten hprefix.config
  rw [Globals.boundTo_iff hrest.config, blockAfter,
    hrest.listens _ (action_next_lt e.entry _), hsay]
  exact and_iff_right (hrest.kept _ hmem)

/-- Every port that is written is bound to if no block in front of the server block has one, and
    the ports of a block behind it agree and are less than 65535. -/
theorem boundTo_iff (h : LastServer es before server after) :
    (∀ es₁ e es₂, es = es₁ ++ e :: es₂ → ∀ s ∈ e.ports,
      (sourceAction es).BoundTo (blockAfter es₁) s.value) ↔
    (∀ e ∈ before, e.ports = []) ∧ ∀ e ∈ after, ∀ s ∈ e.ports,
      s.value < 65535 ∧ ∀ s' ∈ e.ports, s'.value = s.value := by
  constructor
  · intro hbound
    constructor
    · intro e he
      obtain ⟨es₁, es₂, rfl⟩ := List.append_of_mem he
      refine List.eq_nil_iff_forall_not_mem.2 fun s hs => not_boundTo_before h s.value ?_
      exact hbound es₁ e (es₂ ++ server :: after) (by simp [h.eq]) s hs
    · intro e he
      obtain ⟨es₁, es₂, rfl⟩ := List.append_of_mem he
      refine e.bound_ports_iff.1 fun s hs => (boundTo_after h (e.kind_of_port hs) s.value).1 ?_
      exact hbound (before ++ server :: es₁) e es₂ (by simp [h.eq]) s hs
  · rintro ⟨hbefore, hafter⟩ es₁ e es₂ hes s hs
    rcases List.append_eq_append_iff.1 (hes.symm.trans h.eq) with
      ⟨mid, rfl, hmid⟩ | ⟨mid, rfl, hmid⟩
    · -- The block is in front of the server block, or is the server block.
      cases mid with
      | nil =>
        cases hmid
        exact absurd (h.server.symm.trans (server.kind_of_port hs)) (by decide)
      | cons e' mid =>
        cases hmid
        rw [hbefore e (by simp)] at hs
        cases hs
    · cases mid with
      | nil =>
        cases hmid
        exact absurd (h.server.symm.trans (server.kind_of_port hs)) (by decide)
      | cons e' mid =>
        cases hmid
        rw [boundTo_after h (e.kind_of_port hs)]
        exact e.bound_ports_iff.2 (hafter e (by simp)) s hs

/-! ## All numbers -/

/-- A server block with a directory, as it is written. -/
def Sample.directory : SourceEntry :=
  ⟨.server, [.other (.directory (ascii "/srv")) (by decide)], by decide⟩

/-- A listen block with the port 65535. -/
def Sample.highPort : SourceEntry :=
  ⟨.listen, [.port ⟨ascii "65535", by decide, List.all_eq_true.1 (by decide)⟩], by decide⟩

/-- The timeouts that are written are those waited for, if they are corrected or not too long. -/
theorem timeouts_iff {timeouts : List Literal} (n : ℕ)
    (hlast : n = 5 ∨ ∃ s ∈ timeouts, s.value = n) :
    (∀ s ∈ timeouts, narrowed n < 2 ∨ epollTimeout (narrowed n) = some ((s.value : Int) * 1000)) ↔
      narrowed n < 2 ∨ ∀ s ∈ timeouts, s.value ≤ 2147483 ∧ s.value = n := by
  by_cases hshort : narrowed n < 2
  · simp [hshort]
  · simp only [hshort, false_or, epollTimeout_eq_iff (Int.not_lt.1 hshort)]
    constructor
    · intro h s hs
      have hn : n ≤ 2147483 := by
        rcases hlast with rfl | ⟨last, hmem, rfl⟩
        · omega
        · exact (h last hmem).1
      have hnarrowed := narrowed_of_lt (n := n) (by omega)
      have hvalue := h s hs
      exact ⟨hvalue.1, by omega⟩
    · intro h s hs
      obtain ⟨hle, heq⟩ := h s hs
      exact ⟨hle, by rw [heq, narrowed_of_lt (by omega)]⟩

/-- The seconds are those of the default, or they are written. -/
theorem SourceEntry.seconds_cases (e : SourceEntry) :
    e.seconds = 5 ∨ ∃ s ∈ e.readtimeouts, s.value = e.seconds := by
  rw [seconds]
  cases hlast : e.readtimeouts.getLast? with
  | none => exact .inl rfl
  | some s => exact .inr ⟨s, List.mem_of_getLast? hlast, rfl⟩

/-- The timeouts that are written in a file are those waited for, if what the server block says is
    corrected or all say the same. -/
theorem waited_iff (h : LastServer es before server after) {wait : Option Int}
    (hwait : 2 ≤ narrowed server.seconds → wait = epollTimeout (narrowed server.seconds)) :
    (∀ e ∈ es, ∀ s ∈ e.readtimeouts,
      narrowed server.seconds < 2 ∨ wait = some ((s.value : Int) * 1000)) ↔
    narrowed server.seconds < 2 ∨
      ∀ e ∈ es, ∀ s ∈ e.readtimeouts, s.value ≤ 2147483 ∧ s.value = server.seconds := by
  have hmem : server.seconds = 5 ∨
      ∃ s ∈ es.flatMap SourceEntry.readtimeouts, s.value = server.seconds := by
    refine server.seconds_cases.imp_right fun ⟨s, hs, heq⟩ => ⟨s, ?_, heq⟩
    exact List.mem_flatMap.2 ⟨server, by simp [h.eq], hs⟩
  by_cases hshort : narrowed server.seconds < 2
  · simp [hshort]
  · have hiff := timeouts_iff server.seconds hmem
    rw [hwait (Int.not_lt.1 hshort)]
    simpa only [List.mem_flatMap, forall_exists_index, and_imp, @forall_comm Literal] using hiff

/-- What it takes for the numbers of a file to take effect: the ports stand behind the server
    block, agree block by block and are less than 65535; the timeout is too short as an `int`, or
    all timeouts are what the server block says, at most 2147483 seconds. -/
structure NumbersFit (es before : List SourceEntry) (server : SourceEntry)
    (after : List SourceEntry) : Prop where
  before : ∀ e ∈ before, e.ports = []
  after : ∀ e ∈ after, ∀ s ∈ e.ports, s.value < 65535 ∧ ∀ s' ∈ e.ports, s'.value = s.value
  timeout : narrowed server.seconds < 2 ∨
    ∀ e ∈ es, ∀ s ∈ e.readtimeouts, s.value ≤ 2147483 ∧ s.value = server.seconds

theorem takesEffect_lastServer (h : LastServer es before server after) :
    TakesEffect es ↔
      server.entry.server.directory = none ∨ NumbersFit es before server after := by
  obtain ⟨_, p, -, -, hextends, -, -, hread, hdirectory⟩ := sourceAction_lastServer h
  have hp := hextends.config
  by_cases hdir : server.entry.server.directory = none
  · -- The file is rejected.
    have hrejected (g : Globals) :
        parseConfig (some (sourceText es)) .fresh ≠ .ok (0, g) := by
      intro hg
      obtain ⟨q, hq, hdir', -⟩ := parseConfig_sourceText hg
      cases hp.symm.trans hq
      exact hdir' (hdirectory.2 hdir)
    exact iff_of_true ⟨fun g hg => absurd hg (hrejected g), fun g hg => absurd hg (hrejected g)⟩
      (.inl hdir)
  · obtain ⟨g, hg⟩ : ∃ g, parseConfig (some (sourceText es)) .fresh = .ok (0, g) :=
      ⟨_, parseConfig_fileText_ok_iff.2 ⟨p, hp, fun hnone => hdir (hdirectory.1 hnone), rfl⟩⟩
    obtain ⟨q, hq, -, hbound, hstderr, hwait⟩ := parseConfig_sourceText hg
    cases hp.symm.trans hq
    rw [hread] at hstderr hwait
    -- The file makes one configuration.
    have hports : (∀ g, parseConfig (some (sourceText es)) .fresh = .ok (0, g) →
        ∀ es₁ e es₂, es = es₁ ++ e :: es₂ → ∀ s ∈ e.ports,
          g.BoundTo (blockAfter es₁) s.value) ↔
        (∀ e ∈ before, e.ports = []) ∧ ∀ e ∈ after, ∀ s ∈ e.ports,
          s.value < 65535 ∧ ∀ s' ∈ e.ports, s'.value = s.value := by
      rw [← boundTo_iff h]
      simp only [hg, Except.ok.injEq, Prod.mk.injEq, true_and, forall_eq', hbound]
    have htimeout : (∀ g, parseConfig (some (sourceText es)) .fresh = .ok (0, g) →
        ∀ e ∈ es, ∀ s ∈ e.readtimeouts, timeoutStderr (sourceText es) .fresh ≠ [] ∨
          g.waitTimeout = some ((s.value : Int) * 1000)) ↔
        (narrowed server.seconds < 2 ∨
          ∀ e ∈ es, ∀ s ∈ e.readtimeouts, s.value ≤ 2147483 ∧ s.value = server.seconds) := by
      rw [← waited_iff h hwait]
      simp only [hg, Except.ok.injEq, Prod.mk.injEq, true_and, forall_eq', hstderr]
    rw [or_iff_right hdir]
    constructor
    · intro h
      obtain ⟨hbefore, hafter⟩ := hports.1 h.ports
      exact ⟨hbefore, hafter, htimeout.1 h.timeout⟩
    · exact fun h => ⟨hports.2 ⟨h.before, h.after⟩, htimeout.2 h.timeout⟩

end

/-- The numbers of a file take effect exactly if its last server block names no directory, as the
    file is rejected then, or they fit. -/
theorem takesEffect_iff (es : List SourceEntry) : TakesEffect es ↔
    ∀ before server after, LastServer es before server after →
      server.entry.server.directory = none ∨ NumbersFit es before server after := by
  constructor
  · exact fun h before server after hlast => (takesEffect_lastServer hlast).1 h
  · intro h
    have hread {g} (hg : parseConfig (some (sourceText es)) .fresh = .ok (0, g)) :
        TakesEffect es := by
      obtain ⟨before, server, after, hlast⟩ := exists_lastServer hg
      exact (takesEffect_lastServer hlast).2 (h before server after hlast)
    exact ⟨fun g hg => (hread hg).ports g hg, fun g hg => (hread hg).timeout g hg⟩

/-- The port 65535 is replaced by the default. -/
theorem not_takesEffect : ¬∀ es, TakesEffect es := by
  intro h
  have hlast : LastServer [Sample.directory, Sample.highPort] [] Sample.directory
      [Sample.highPort] := ⟨rfl, rfl, by decide⟩
  rcases (takesEffect_lastServer hlast).1 (h _) with hdir | hfit
  · exact absurd hdir (by decide)
  · obtain ⟨hlt, -⟩ := hfit.after Sample.highPort List.mem_cons_self _ List.mem_cons_self
    exact absurd hlt (by decide)

end Nbstftp
