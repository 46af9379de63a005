import Nbstftp.Settings
import Nbstftp.System
import Nbstftp.Lib.Foreach

/-!
# Modules

The server loads modules from shared libraries, which give functions to be called for events.
The dynamic linker counts how often a library was opened, and unmaps it once it was closed as
often; what a module of the list points to is in its library.

The books are balanced (`Modules.Balanced`) if each library is counted once for every module
of the list, and each path is either one of the list or was released. In every run of calls
they are, and no library that is gone is looked into, if and only if every library that can be
opened has a structure that says what it is and is stored in the list, and only modules are
unloaded that are the first in the list of their name (`balanced_iff`): `UnloadModule` takes a
module out of the list by its name, but closes and releases the one it is given.

So the start of the server (`initializeModules_iff`) ends at a module block that says neither
path nor name, which the grammar allows for.
-/

namespace Nbstftp

def EV_MODLOAD : Int := 1
def EV_MODUNLOAD : Int := 2

/-- `event_t`: a function to be called for events of a type. -/
structure EventHook where
  type : Int
  func : ℕ
  deriving DecidableEq

/-- `module_info_t`. -/
structure ModuleInfo where
  name : Bytes
  events : List EventHook
  deriving DecidableEq

/-- `module_t`, with what `minfo` points to: the block of the path is known by its number. -/
structure Module where
  handle : ℕ
  path : ℕ
  minfo : ModuleInfo
  deriving DecidableEq

/-- The libraries there are, and the structures in them that a symbol stands for. -/
structure Linker where
  dlopen : Bytes → Option ℕ
  dlsym : ℕ → Bytes → Option ModuleInfo

/-- Some platforms prefix symbols with an underscore. -/
def Linker.minfo (L : Linker) (handle : ℕ) : Option ModuleInfo :=
  match L.dlsym handle (ascii "_minfo") with
  | some minfo => some minfo
  | none => L.dlsym handle (ascii "__minfo")

inductive ModuleFault
  /-- A null path is asserted not to be one. -/
  | assertion
  /-- A library that is not mapped is looked into. -/
  | unmapped
  /-- A module is written outside of the block of the list. -/
  | astray
  deriving DecidableEq

/-- The list of modules, how often each library is open, and what was allocated, released and
    called. -/
structure Modules where
  modules : List Module
  refs : ℕ → ℕ
  strdups : ℕ
  freed : List ℕ
  calls : List (ℕ × Int)

namespace Modules

def init : Modules := ⟨[], fun _ => 0, 0, [], []⟩

def dlclose (s : Modules) (handle : ℕ) : Modules :=
  { s with refs := Function.update s.refs handle (s.refs handle - 1) }

/-- `CallModuleEvent`. -/
def callModuleEvent (type : Int) (s : Modules) (m : Module) : Except ModuleFault Modules :=
  if s.refs m.handle = 0 then .error .unmapped
  else .ok { s with
    calls := s.calls ++ (m.minfo.events.filter (·.type = type)).map fun ev => (ev.func, type) }

/-- `CallEvent`. -/
def callEvent (s : Modules) (type : Int) : Except ModuleFault Modules :=
  Lib.foreach (·.modules) (callModuleEvent type) s

/-- `LoadModule`: nobody asks whether there was memory to add it to the list. -/
def loadModule (L : Linker) (s : Modules) (str : Option Bytes) (push : Push) :
    Except ModuleFault Modules :=
  match str with
  | none => .error .assertion
  | some str =>
    match L.dlopen str with
    | none => .ok s
    | some handle =>
      let path := s.strdups
      let s := { s with
        refs := Function.update s.refs handle (s.refs handle + 1), strdups := s.strdups + 1 }
      match L.minfo handle with
      -- The path is not released.
      | none => .ok (s.dlclose handle)
      | some minfo =>
        match push with
        | .astray => .error .astray
        | .stored | .nomem =>
          let m : Module := ⟨handle, path, minfo⟩
          callEvent { s with modules := s.modules ++ [m] } EV_MODLOAD

/-- `UnloadModule`: the first module of the same name leaves the list. -/
def unloadModule (s : Modules) (m : Module) : Except ModuleFault Modules :=
  match s.callEvent EV_MODUNLOAD with
  | .error fault => .error fault
  | .ok s =>
    -- The modules of the list have just been looked into, but not this one.
    if s.modules ≠ [] ∧ s.refs m.handle = 0 then .error .unmapped
    else
      let s := { s with modules := s.modules.eraseP (·.minfo.name = m.minfo.name) }
      let s := s.dlclose m.handle
      .ok { s with freed := s.freed ++ [m.path] }

/-- `FindModule`, in what is left of the list. -/
def findIn (s : Modules) (name : Bytes) : List Module → Except ModuleFault (Option Module)
  | [] => .ok none
  | m :: modules =>
    if s.refs m.handle = 0 then .error .unmapped
    else if m.minfo.name = name then .ok (some m)
    else s.findIn name modules

/-- `FindModule`. -/
def findModule (s : Modules) (name : Bytes) : Except ModuleFault (Option Module) :=
  s.findIn name s.modules

end Modules

/-- What may be asked for. -/
inductive ModuleCall
  | load (str : Option Bytes) (push : Push)
  | unload (m : Module)
  | find (name : Bytes)
  | event (type : Int)

def Modules.step (L : Linker) (s : Modules) : ModuleCall → Except ModuleFault Modules
  | .load str push => s.loadModule L str push
  | .unload m => s.unloadModule m
  | .find name => (s.findModule name).map fun _ => s
  | .event type => s.callEvent type

/-- A call with the modules before and after it. -/
abbrev ModuleStep := Lib.Transition Modules ModuleCall ModuleFault

/-- Each library is open once for every module of the list, and each path is that of one of
    them, or was released: once, and none was that is not. -/
structure Modules.Balanced (s : Modules) : Prop where
  refs : ∀ handle, s.refs handle = (s.modules.map Module.handle).count handle
  paths : (s.modules.map Module.path ++ s.freed).Perm (List.range s.strdups)

/-- A call that finds nothing amiss, and leaves the books balanced. -/
def ModuleStep.Balances (t : ModuleStep) : Prop := ∃ s, t.post = .ok s ∧ s.Balanced

/-- A library that is loaded says what it is, and is stored in the list; a module that is
    unloaded is the first in the list of its name. -/
def ModuleStep.InOrder (L : Linker) (t : ModuleStep) : Prop :=
  match t.input with
  | .load str push => ∃ path, str = some path ∧ ∀ handle ∈ L.dlopen path,
      (L.minfo handle).isSome = true ∧ push ≠ .astray
  | .unload m => ∃ first ∈ t.pre.modules.find? (·.minfo.name = m.minfo.name),
      first.handle = m.handle ∧ first.path = m.path
  | .find _ | .event _ => True

/-! ## Events -/

/-- The functions a module has for events of a type. -/
def Module.hooks (type : Int) (m : Module) : List (ℕ × Int) :=
  (m.minfo.events.filter (·.type = type)).map fun ev => (ev.func, type)

namespace Modules

variable {L : Linker} {s s' : Modules} {m : Module} {type : Int}

/-- The libraries of the modules of the list are open. -/
def Mapped (s : Modules) : Prop := ∀ m ∈ s.modules, s.refs m.handle ≠ 0

/-- The modules of some list are called, one after the other. -/
theorem run_callModuleEvent {l : List Module} (h : ∀ m ∈ l, s.refs m.handle ≠ 0) :
    Lib.run (callModuleEvent type) s l =
      .ok { s with calls := s.calls ++ l.flatMap (Module.hooks type) } := by
  induction l generalizing s with
  | nil => rw [Lib.run, List.flatMap_nil, List.append_nil]
  | cons m l ih =>
    obtain ⟨hm, hl⟩ := List.forall_mem_cons.1 h
    have hcall : callModuleEvent type s m =
        .ok { s with calls := s.calls ++ m.hooks type } := if_neg hm
    rw [Lib.run_cons_ok hcall]
    have hrest := @ih { s with calls := s.calls ++ m.hooks type } hl
    rwa [List.append_assoc, ← List.flatMap_cons] at hrest

/-- An event is one for all modules of the list, if these are mapped. -/
theorem callEvent_eq (h : s.Mapped) (type : Int) : s.callEvent type =
    .ok { s with calls := s.calls ++ s.modules.flatMap (Module.hooks type) } := by
  rw [callEvent, Lib.foreach_eq_run, run_callModuleEvent h]
  intro s m s' hs
  rw [callModuleEvent] at hs
  split at hs
  · cases hs
  · cases hs
    rfl

/-- The list once a library was loaded. -/
def listed (s : Modules) (handle : ℕ) (minfo : ModuleInfo) : List Module :=
  s.modules ++ [⟨handle, s.strdups, minfo⟩]

/-- A library that is loaded is counted and listed, if its module is stored. -/
theorem loadModule_eq (h : s.Mapped) {path : Bytes} {handle : ℕ} {minfo : ModuleInfo}
    (hopen : L.dlopen path = some handle) (hinfo : L.minfo handle = some minfo) {push : Push}
    (hpush : push ≠ .astray) :
    s.loadModule L (some path) push = .ok ⟨s.listed handle minfo,
        Function.update s.refs handle (s.refs handle + 1), s.strdups + 1, s.freed,
        s.calls ++ (s.listed handle minfo).flatMap (Module.hooks EV_MODLOAD)⟩ ∧
      Mapped ⟨s.listed handle minfo, Function.update s.refs handle (s.refs handle + 1),
        s.strdups + 1, s.freed, s.calls⟩ := by
  have hmapped : Mapped ⟨s.listed handle minfo,
      Function.update s.refs handle (s.refs handle + 1), s.strdups + 1, s.freed, s.calls⟩ := by
    intro m hm
    dsimp only
    rw [Function.update_apply]
    split
    · exact Nat.succ_ne_zero _
    · next hne =>
      rcases List.mem_append.1 hm with hm | hm
      · exact h m hm
      · exact absurd (congrArg Module.handle (List.mem_singleton.1 hm)) hne
  refine ⟨?_, hmapped⟩
  rw [← callEvent_eq hmapped]
  simp only [loadModule, hopen, hinfo, listed]
  cases push with
  | stored => rfl
  | nomem => rfl
  | astray => exact absurd rfl hpush

/-- Otherwise, the memory of others is written to. -/
theorem loadModule_astray {path : Bytes} {handle : ℕ} {minfo : ModuleInfo}
    (hopen : L.dlopen path = some handle) (hinfo : L.minfo handle = some minfo) :
    s.loadModule L (some path) .astray = .error .astray := by
  simp only [loadModule, hopen, hinfo]

theorem findIn_eq {l : List Module} (h : ∀ m ∈ l, s.refs m.handle ≠ 0) (name : Bytes) :
    s.findIn name l = .ok (l.find? (·.minfo.name = name)) := by
  induction l with
  | nil => rfl
  | cons m l ih =>
    obtain ⟨hm, hl⟩ := List.forall_mem_cons.1 h
    rw [findIn, if_neg hm, List.find?_cons, ih hl]
    by_cases hname : m.minfo.name = name <;> simp [hname]

/-! ## The books -/

/-- A library in the list is open. -/
theorem Balanced.refs_pos (h : s.Balanced) (hm : m ∈ s.modules) : 0 < s.refs m.handle := by
  rw [h.refs, List.count_pos_iff]
  exact List.mem_map_of_mem hm

theorem Balanced.mapped (h : s.Balanced) : s.Mapped :=
  fun _ hm => Nat.pos_iff_ne_zero.1 (h.refs_pos hm)

/-- As many paths as were allocated. -/
theorem Balanced.length_eq (h : s.Balanced) :
    s.modules.length + s.freed.length = s.strdups := by
  have hlength := h.paths.length_eq
  rwa [List.length_append, List.length_map, List.length_range] at hlength

/-- Calling functions leaves the books alone. -/
theorem balanced_calls {calls : List (ℕ × Int)} :
    Balanced { s with calls := calls } ↔ s.Balanced :=
  ⟨fun h => ⟨h.refs, h.paths⟩, fun h => ⟨h.refs, h.paths⟩⟩

theorem balanced_init : init.Balanced := ⟨fun _ => rfl, .refl _⟩

/-- A module is added, and its library is opened once more. -/
theorem Balanced.add (h : s.Balanced) (handle : ℕ) (minfo : ModuleInfo)
    (calls : List (ℕ × Int)) :
    Balanced ⟨s.modules ++ [⟨handle, s.strdups, minfo⟩],
      Function.update s.refs handle (s.refs handle + 1), s.strdups + 1, s.freed, calls⟩ where
  refs handle' := by
    dsimp only
    rw [List.map_append, List.count_append, ← h.refs, Function.update_apply]
    by_cases heq : handle' = handle
    · subst heq
      simp
    · simp [heq, Ne.symm heq]
  paths := by
    rw [List.map_append, List.range_succ, List.append_assoc]
    exact (List.perm_append_comm.append_left _).trans
      (by rw [← List.append_assoc]; exact h.paths.append_right _)

/-- Replacing one of some items by another one. -/
theorem cons_perm_iff {a b : ℕ} {l l' : List ℕ} (h : (a :: l).Perm l') :
    (b :: l).Perm l' ↔ a = b := by
  constructor
  · intro h'
    have hcount := (h.trans h'.symm).count_eq b
    by_contra hne
    rw [List.count_cons_self, List.count_cons_of_ne hne] at hcount
    omega
  · rintro rfl
    exact h

/-- A module is unloaded while `first` is taken out of the list. -/
theorem Balanced.remove_iff {pre rest : List Module} {first : Module} (h : s.Balanced)
    (hmodules : s.modules = pre ++ first :: rest) (calls : List (ℕ × Int)) :
    Balanced ⟨pre ++ rest, Function.update s.refs m.handle (s.refs m.handle - 1), s.strdups,
      s.freed ++ [m.path], calls⟩ ↔ first.handle = m.handle ∧ first.path = m.path := by
  have hrefs : ∀ handle, s.refs handle =
      ((pre ++ rest).map Module.handle).count handle + if first.handle = handle then 1 else 0 := by
    intro handle
    rw [h.refs, hmodules]
    simp only [List.map_append, List.map_cons, List.count_append, List.count_cons, beq_iff_eq]
    omega
  have hpaths : (first.path :: ((pre ++ rest).map Module.path ++ s.freed)).Perm
      (List.range s.strdups) := by
    refine .trans (.trans ?_ (.of_eq (congrArg (·.map Module.path ++ s.freed) hmodules.symm)))
      h.paths
    rw [List.map_append, List.map_append, List.map_cons, List.append_assoc, List.append_assoc]
    exact List.perm_middle.symm
  have hfreed : ((pre ++ rest).map Module.path ++ (s.freed ++ [m.path])).Perm
      (m.path :: ((pre ++ rest).map Module.path ++ s.freed)) := by
    rw [← List.append_assoc]
    exact List.perm_append_singleton _ _
  constructor
  · intro hafter
    refine ⟨?_, (cons_perm_iff hpaths).1 (hfreed.symm.trans hafter.paths)⟩
    by_contra hne
    -- The library of the first is counted once too often.
    have hcount := hafter.refs first.handle
    dsimp only at hcount
    rw [Function.update_of_ne hne, hrefs, if_pos rfl] at hcount
    omega
  · rintro ⟨hhandle, hpath⟩
    refine ⟨fun handle => ?_, hfreed.trans ((cons_perm_iff hpaths).2 hpath)⟩
    dsimp only
    rw [Function.update_apply]
    split
    · next heq =>
      rw [← heq] at hhandle ⊢
      rw [hrefs, if_pos hhandle]
      rfl
    · next hne =>
      rw [hrefs, if_neg fun heq => hne (heq.symm.trans hhandle), Nat.add_zero]

/-! ## Calls -/

/-- What has more paths allocated than are listed or released is not balanced. -/
theorem not_balanced_of_lt (h : s.modules.length + s.freed.length ≠ s.strdups) : ¬s.Balanced :=
  fun hbalanced => h hbalanced.length_eq

theorem balances_ok_iff {o : Except ModuleFault Modules} (call : ModuleCall) (s₁ : Modules)
    (ho : o = .ok s₁) : ModuleStep.Balances ⟨s, call, o⟩ ↔ s₁.Balanced := by
  refine ⟨fun ⟨s₂, hs₂, hbalanced⟩ => ?_, fun hbalanced => ⟨s₁, ho, hbalanced⟩⟩
  cases ho.symm.trans hs₂
  exact hbalanced

/-- Loading a library keeps the books exactly if it says what it is and is stored. -/
theorem balances_load_iff (h : s.Balanced) (str : Option Bytes) (push : Push) :
    ModuleStep.Balances ⟨s, .load str push, s.loadModule L str push⟩ ↔
      ∃ path, str = some path ∧
        ∀ handle ∈ L.dlopen path, (L.minfo handle).isSome = true ∧ push ≠ .astray := by
  cases str with
  | none =>
    refine iff_of_false ?_ nofun
    rintro ⟨s', hs', -⟩
    cases hs'
  | some path =>
    simp only [Option.some.injEq, exists_eq_left']
    cases hopen : L.dlopen path with
    | none =>
      have hload : s.loadModule L (some path) push = .ok s := by simp only [loadModule, hopen]
      exact iff_of_true ⟨s, hload, h⟩ nofun
    | some handle =>
      simp only [Option.mem_some_iff, forall_eq']
      cases hinfo : L.minfo handle with
      | none =>
        rw [loadModule]
        simp only [hopen, hinfo]
        rw [balances_ok_iff _ _ rfl]
        refine iff_of_false (not_balanced_of_lt ?_) fun h => absurd h.1 (by decide)
        have := h.length_eq
        simp only [dlclose]
        omega
      | some minfo =>
        by_cases hpush : push = .astray
        · rw [hpush, loadModule_astray hopen hinfo]
          refine iff_of_false ?_ fun h => h.2 rfl
          rintro ⟨s', hs', -⟩
          cases hs'
        · rw [balances_ok_iff _ _ (loadModule_eq h.mapped hopen hinfo hpush).1]
          exact iff_of_true (h.add handle minfo _) ⟨rfl, hpush⟩

/-- Unloading a module keeps the books exactly if it is the first of its name. -/
theorem balances_unload_iff (h : s.Balanced) (m : Module) :
    ModuleStep.Balances ⟨s, .unload m, s.unloadModule m⟩ ↔
      ∃ first ∈ s.modules.find? (·.minfo.name = m.minfo.name),
        first.handle = m.handle ∧ first.path = m.path := by
  rw [unloadModule, callEvent_eq h.mapped]
  dsimp only
  cases hfind : s.modules.find? (·.minfo.name = m.minfo.name) with
  | none =>
    have herase : s.modules.eraseP (·.minfo.name = m.minfo.name) = s.modules :=
      List.eraseP_of_forall_not (by simpa using hfind)
    refine iff_of_false ?_ nofun
    rintro ⟨s', hs', hbalanced⟩
    split at hs'
    · cases hs'
    · cases hs'
      refine not_balanced_of_lt ?_ hbalanced
      have := h.length_eq
      simp only [dlclose, herase, List.length_append, List.length_singleton]
      omega
  | some first =>
    simp only [Option.mem_some_iff, exists_eq_left']
    obtain ⟨hname, pre, rest, hmodules, hpre⟩ := List.find?_eq_some_iff_append.1 hfind
    have herase : s.modules.eraseP (·.minfo.name = m.minfo.name) = pre ++ rest := by
      rw [hmodules, List.eraseP_append_right _ (by simpa using hpre)]
      exact congrArg (pre ++ ·) (List.eraseP_cons_of_pos hname)
    split
    · next hgone =>
      -- The library is not open, in contrast to that of the first.
      refine iff_of_false (fun ⟨s', hs', _⟩ => nomatch hs') fun hfirst => ?_
      have hpos := h.refs_pos (List.mem_of_find?_eq_some hfind)
      rw [hfirst.1, hgone.2] at hpos
      exact Nat.lt_irrefl 0 hpos
    · rw [balances_ok_iff _ _ rfl, dlclose]
      dsimp only
      rw [herase]
      exact h.remove_iff hmodules _

/-- With the books balanced, they remain so exactly if the call is in order. -/
theorem Balanced.balances_iff (h : s.Balanced) (call : ModuleCall) :
    ModuleStep.Balances ⟨s, call, s.step L call⟩ ↔
      ModuleStep.InOrder L ⟨s, call, s.step L call⟩ := by
  cases call with
  | load str push => exact balances_load_iff h str push
  | unload m => exact balances_unload_iff h m
  | find name =>
    refine iff_of_true ⟨s, ?_, h⟩ trivial
    show (s.findIn name s.modules).map (fun _ => s) = .ok s
    rw [findIn_eq h.mapped]
    rfl
  | event type => exact iff_of_true ⟨_, callEvent_eq h.mapped type, balanced_calls.2 h⟩ trivial

/-- In every run of calls, the books are balanced all the time, no library is looked into that
    is gone and no module is stored outside of the list if and only if all calls are in order. -/
theorem balanced_iff (L : Linker) (calls : List ModuleCall) :
    (∀ t ∈ Lib.trace (step L) init calls, ModuleStep.Balances t) ↔
      ∀ t ∈ Lib.trace (step L) init calls, ModuleStep.InOrder L t := by
  rw [← Lib.always_iff_forall_mem, ← Lib.always_iff_forall_mem]
  refine Lib.always_iff_always (fun _ => Balanced) balanced_init ?_ ?_
  · rintro past ⟨s, call, post⟩ h - (hpost : post = s.step L call)
    rw [hpost]
    exact h.balances_iff call
  · rintro past ⟨s, call, post⟩ s' h - (hpost : post = s.step L call) horder (hok : post = .ok s')
    rw [hpost] at horder hok
    obtain ⟨s'', hs'', hbalanced⟩ := (h.balances_iff call).2 horder
    cases hok.symm.trans hs''
    exact hbalanced

end Modules

/-! ## Starting -/

/-- What a module block has opened: its path, or else its name. -/
def ModuleSettings.opened (b : ModuleSettings) : Option Bytes :=
  match b.path with
  | some path => some path
  | none => b.name

/-- A module block, and what becomes of its module when it is listed. -/
structure ModuleBlock where
  settings : ModuleSettings
  push : Push

/-- The library a block has opened. -/
def ModuleBlock.library (L : Linker) (b : ModuleBlock) : Option ℕ := b.settings.opened.bind L.dlopen

/-- What a block has listed: its library, if that says what it is. -/
def ModuleBlock.listed (L : Linker) (b : ModuleBlock) : Option (ℕ × ModuleInfo) :=
  (b.library L).bind fun handle => (L.minfo handle).map fun minfo => (handle, minfo)

/-- A block says what to open, and a module it lists is stored. -/
def ModuleBlock.Loads (L : Linker) (b : ModuleBlock) : Prop :=
  b.settings.opened.isSome = true ∧ ((b.listed L).isSome = true → b.push ≠ .astray)

/-- `InitializeModules`. -/
def initializeModules (L : Linker) (blocks : List ModuleBlock) : Except ModuleFault Modules :=
  Lib.run (fun s b => s.loadModule L b.settings.opened b.push) .init blocks

/-- The modules of the blocks are listed, in their order; each time one is listed, all that are
    listed by then are told. A path was allocated for each library that was opened, and none was
    released. -/
structure Modules.Started (L : Linker) (blocks : List ModuleBlock) (s : Modules) : Prop where
  mapped : s.Mapped
  modules : s.modules.map (fun m => (m.handle, m.minfo)) =
    blocks.filterMap (ModuleBlock.listed L)
  calls : s.calls = (List.range s.modules.length).flatMap fun k =>
    (s.modules.take (k + 1)).flatMap (Module.hooks EV_MODLOAD)
  freed : s.freed = []
  strdups : s.strdups = blocks.countP fun b => (b.library L).isSome

namespace Modules

variable {L : Linker} {s s' : Modules} {blocks : List ModuleBlock} {b : ModuleBlock}

theorem started_init : init.Started L [] := ⟨fun _ => nofun, rfl, rfl, rfl, rfl⟩

/-- The calls when one more module is listed. -/
theorem calls_listed {l : List Module} (m : Module) :
    ((List.range (l ++ [m]).length).flatMap fun k =>
        ((l ++ [m]).take (k + 1)).flatMap (Module.hooks EV_MODLOAD)) =
      ((List.range l.length).flatMap fun k =>
        (l.take (k + 1)).flatMap (Module.hooks EV_MODLOAD)) ++
      (l ++ [m]).flatMap (Module.hooks EV_MODLOAD) := by
  have hlength : (l ++ [m]).length = l.length + 1 := List.length_append
  rw [hlength, List.range_succ, List.flatMap_append, List.flatMap_singleton, ← hlength,
    List.take_length]
  refine congrArg (· ++ _) (List.flatMap_congr fun k hk => ?_)
  rw [List.take_append_of_le_length (List.mem_range.1 hk)]

/-- A block that loads is followed by the next one. -/
theorem Started.block (h : s.Started L blocks) (hb : b.Loads L) :
    ∃ s', s.loadModule L b.settings.opened b.push = .ok s' ∧ s'.Started L (blocks ++ [b]) := by
  obtain ⟨path, hpath⟩ := Option.isSome_iff_exists.1 hb.1
  have hlibrary : b.library L = L.dlopen path := by rw [ModuleBlock.library, hpath]; rfl
  have hmodules := h.modules
  have hstrdups := h.strdups
  rw [hpath]
  cases hopen : L.dlopen path with
  | none =>
    rw [hopen] at hlibrary
    refine ⟨s, by simp only [loadModule, hopen], h.mapped, ?_, h.calls, h.freed, ?_⟩
    · rw [List.filterMap_append, hmodules]
      simp [ModuleBlock.listed, hlibrary]
    · rw [List.countP_append, hstrdups]
      simp [hlibrary]
  | some handle =>
    rw [hopen] at hlibrary
    cases hinfo : L.minfo handle with
    | none =>
      -- The library is closed again, but its path remains.
      have hrefs : Function.update (Function.update s.refs handle (s.refs handle + 1)) handle
          (s.refs handle) = s.refs := by
        rw [Function.update_idem, Function.update_eq_self]
      refine ⟨⟨s.modules, s.refs, s.strdups + 1, s.freed, s.calls⟩, ?_, h.mapped, ?_, h.calls,
        h.freed, ?_⟩
      · simp only [loadModule, hopen, hinfo, dlclose, Function.update_self, Nat.add_sub_cancel,
          hrefs]
      · rw [List.filterMap_append, ← hmodules]
        simp [ModuleBlock.listed, hlibrary, hinfo]
      · rw [List.countP_append, ← hstrdups]
        simp [hlibrary]
    | some minfo =>
      have hlisted : b.listed L = some (handle, minfo) := by
        simp [ModuleBlock.listed, hlibrary, hinfo]
      obtain ⟨hload, hmapped⟩ :=
        loadModule_eq h.mapped hopen hinfo (hb.2 (Option.isSome_iff_exists.2 ⟨_, hlisted⟩))
      refine ⟨_, hload, hmapped, ?_, ?_, h.freed, ?_⟩
      · rw [List.filterMap_append, ← hmodules, listed]
        simp [hlisted]
      · dsimp only
        rw [listed, calls_listed, h.calls]
      · rw [List.countP_append, ← hstrdups]
        simp [hlibrary]

theorem run_started (h : s.Started L blocks) {rest : List ModuleBlock}
    (hrest : ∀ b ∈ rest, b.Loads L) :
    ∃ s', Lib.run (fun s b => s.loadModule L b.settings.opened b.push) s rest = .ok s' ∧
      s'.Started L (blocks ++ rest) := by
  induction rest generalizing s blocks with
  | nil => exact ⟨s, rfl, by rwa [List.append_nil]⟩
  | cons b rest ih =>
    obtain ⟨hb, hrest⟩ := List.forall_mem_cons.1 hrest
    obtain ⟨s₁, hs₁, hstarted⟩ := h.block hb
    rw [Lib.run_cons_ok hs₁, List.append_cons]
    exact ih hstarted hrest

/-- A block that says neither fails an assertion, and a module must be stored. -/
theorem loads_of_loadModule (h : s.loadModule L b.settings.opened b.push = .ok s') :
    b.Loads L := by
  cases hpath : b.settings.opened with
  | none =>
    rw [hpath] at h
    cases h
  | some path =>
    refine ⟨by rw [hpath]; rfl, fun hlisted hpush => ?_⟩
    obtain ⟨⟨handle, minfo⟩, hlisted⟩ := Option.isSome_iff_exists.1 hlisted
    rw [ModuleBlock.listed, ModuleBlock.library, hpath, Option.bind_eq_some_iff] at hlisted
    obtain ⟨handle', hopen, hinfo⟩ := hlisted
    obtain ⟨minfo', hinfo, -⟩ := Option.map_eq_some_iff.1 hinfo
    rw [hpath, hpush, loadModule_astray hopen hinfo] at h
    cases h

theorem loads_of_run (hrun : Lib.run (fun s b => s.loadModule L b.settings.opened b.push) s
    blocks = .ok s') : ∀ b ∈ blocks, b.Loads L := by
  induction blocks generalizing s with
  | nil => exact fun b hb => absurd hb List.not_mem_nil
  | cons b blocks ih =>
    cases hs : s.loadModule L b.settings.opened b.push with
    | error fault =>
      rw [Lib.run, hs] at hrun
      cases hrun
    | ok s₁ =>
      rw [Lib.run_cons_ok hs] at hrun
      exact List.forall_mem_cons.2 ⟨loads_of_loadModule hs, ih hrun⟩

/-- The server starts with its modules if and only if each module block says what to open and
    what it lists is stored; then it has those of the libraries that say what they are. -/
theorem initializeModules_iff (L : Linker) (blocks : List ModuleBlock) :
    (∃ s, initializeModules L blocks = .ok s ∧ s.Started L blocks) ↔ ∀ b ∈ blocks, b.Loads L :=
  ⟨fun ⟨_, hs, _⟩ => loads_of_run hs, fun h => run_started started_init h⟩

end Modules

/-- A module block of a file says what to open exactly if it has an item. -/
theorem Entry.opened_iff (e : Entry) (he : e.kind = .module) :
    e.module.opened.isSome = true ↔ e.items ≠ [] := by
  rcases List.eq_nil_or_concat e.items with hnil | ⟨items, a, hitems⟩
  · rw [Entry.module, hnil]
    decide
  · rw [List.concat_eq_append] at hitems
    have ha : a.item.kind = .module := he ▸ e.kind_eq a (by rw [hitems]; simp)
    rw [Entry.module, hitems, List.foldl_append, List.foldl_cons, List.foldl_nil]
    refine iff_of_true ?_ (by simp)
    -- The last item is kept, whichever it is.
    generalize items.foldl ModuleSettings.assign ⟨none, none⟩ = s
    cases a with
    | path v => rfl
    | name v =>
      rw [ModuleSettings.assign, ModuleSettings.opened]
      cases s.path <;> rfl
    | _ => cases ha

end Nbstftp
