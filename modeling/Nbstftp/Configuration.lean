import Nbstftp.CString
import Mathlib.Data.Int.Basic
import Mathlib.Logic.Function.Basic

/-!
# The configuration

What the parser of the configuration file makes: a configuration, with pointers to its
listen and module blocks, each on the heap, as are their strings. The one in use is behind
a global pointer (`Globals.config`), through which the actions of the grammar write: every
`server` block makes a new configuration, `listen` and `module` blocks are added to the one
there is (`serverEntry`, `listenEntry`, `moduleEntry`).

`deallocateConfig` releases what is given up; it takes the blocks of the configuration in
use, and the rest of the one it is asked for.
-/

namespace Nbstftp

/-- The process exits with `EXIT_FAILURE`. -/
inductive Exit
  | failure
  deriving DecidableEq

/-- A string on the heap. -/
structure HeapString where
  ptr : ℕ
  text : Bytes
  deriving DecidableEq

/-- `listen_t`. -/
structure ListenBlock where
  bindaddr : Option HeapString
  port : Int
  deriving DecidableEq

/-- `conf_module_t`. -/
structure ConfModule where
  name : Option HeapString
  path : Option HeapString
  deriving DecidableEq

/-- `config_t`, with the texts only of the strings that are never released. -/
structure Configuration where
  directory : Option HeapString
  user : Option HeapString
  group : Option HeapString
  pidfile : Option Bytes
  modsearchpath : Option Bytes
  daemonize : Int
  fixpath : Int
  readtimeout : Int
  listenblocks : List ℕ
  moduleblocks : List ℕ
  deriving DecidableEq

/-- The globals of the parser, and the heap: what pointers point to, the next pointer that
    is allocated, and those released. -/
structure Globals where
  config : Option ℕ
  curblock : ℕ
  curmod : ℕ
  configs : ℕ → Configuration
  listens : ℕ → ListenBlock
  modules : ℕ → ConfModule
  next : ℕ
  released : List ℕ

/-- A configuration with the defaults, but for `daemonize`. -/
def Configuration.defaults (daemonize : Int) : Configuration :=
  ⟨none, none, none, none, none, daemonize, 1, 5, [], []⟩

namespace Globals

/-- Before anything is parsed. -/
def fresh : Globals :=
  ⟨none, 0, 0, fun _ => .defaults 0, fun _ => ⟨none, 0⟩, fun _ => ⟨none, none⟩, 1, []⟩

/-- The configuration is written to. It is there whenever the grammar does so. -/
def setConfig (g : Globals) (f : Configuration → Configuration) : Globals :=
  match g.config with
  | none => g
  | some p => { g with configs := Function.update g.configs p (f (g.configs p)) }

def setListen (g : Globals) (f : ListenBlock → ListenBlock) : Globals :=
  { g with listens := Function.update g.listens g.curblock (f (g.listens g.curblock)) }

def setModule (g : Globals) (f : ConfModule → ConfModule) : Globals :=
  { g with modules := Function.update g.modules g.curmod (f (g.modules g.curmod)) }

/-- A copy of a string. -/
def strdup (s : Bytes) (g : Globals) : HeapString × Globals :=
  (⟨g.next, s⟩, { g with next := g.next + 1 })

/-- A new configuration comes into use. -/
def newConfig (daemonize : Int) (g : Globals) : Globals :=
  { g with
    config := some g.next
    configs := Function.update g.configs g.next (.defaults daemonize)
    next := g.next + 1 }

/-- A configuration comes into use if there is none. -/
def needConfig (g : Globals) : Globals :=
  match g.config with
  | none => g.newConfig (-1)
  | some _ => g

end Globals

/-! ## The actions of the grammar -/

def moduleEntry (g : Globals) : Globals :=
  let m := g.next
  let g := { g with
    modules := Function.update g.modules m ⟨none, none⟩
    curmod := m
    next := m + 1 }
  g.needConfig.setConfig fun c => { c with moduleblocks := c.moduleblocks ++ [m] }

def listenEntry (g : Globals) : Globals :=
  let block := g.next
  let g := { g with
    listens := Function.update g.listens block ⟨none, -1⟩
    curblock := block
    next := block + 1 }
  g.needConfig.setConfig fun c => { c with listenblocks := c.listenblocks ++ [block] }

def serverEntry (g : Globals) : Globals := g.newConfig 1

/-- A string is stored in the configuration. -/
def storeString (set : Configuration → HeapString → Configuration) (sval : Bytes) (g : Globals) :
    Globals :=
  let (s, g) := g.strdup sval
  g.setConfig (set · s)

def serverDirectory : Bytes → Globals → Globals :=
  storeString fun c s => { c with directory := some s }

def serverUser : Bytes → Globals → Globals :=
  storeString fun c s => { c with user := some s }

def serverGroup : Bytes → Globals → Globals :=
  storeString fun c s => { c with group := some s }

def serverModuleSearchPath : Bytes → Globals → Globals :=
  storeString fun c s => { c with modsearchpath := some s.text }

def serverPidfile : Bytes → Globals → Globals :=
  storeString fun c s => { c with pidfile := some s.text }

def serverDaemonize (bval : Bool) (g : Globals) : Globals :=
  g.setConfig fun c => { c with daemonize := bval.toInt }

def serverFixpath (bval : Bool) (g : Globals) : Globals :=
  g.setConfig fun c => { c with fixpath := bval.toInt }

def serverReadtimeout (ival : Int) (g : Globals) : Globals :=
  g.setConfig fun c => { c with readtimeout := ival }

def listenBind (sval : Bytes) (g : Globals) : Globals :=
  let (s, g) := g.strdup sval
  g.setListen fun b => { b with bindaddr := some s }

/-- The port is a `short`. -/
def listenPort (ival : Int) (g : Globals) : Globals :=
  g.setListen fun b => { b with port := ival.bmod UInt16.size }

def modulePath (sval : Bytes) (g : Globals) : Globals :=
  let (s, g) := g.strdup sval
  g.setModule fun m => { m with path := some s }

def moduleName (sval : Bytes) (g : Globals) : Globals :=
  let (s, g) := g.strdup sval
  g.setModule fun m => { m with name := some s }

/-! ## Giving up a configuration -/

/-- `free` of a string, if there is one. -/
def freed (s : Option HeapString) : List ℕ := (s.map HeapString.ptr).toList

/-- What is released of a configuration's blocks. -/
def Globals.freedBlocks (g : Globals) (c : Configuration) : List ℕ :=
  c.listenblocks.flatMap (fun b => freed (g.listens b).bindaddr ++ [b]) ++
    c.moduleblocks.flatMap fun m => freed (g.modules m).name ++ freed (g.modules m).path

/-- The blocks are those of the configuration in use, whatever `conf` is. A null `conf` is
    read from, and the process ends. -/
def deallocateConfig (conf : Option ℕ) (g : Globals) : Except Exit Globals :=
  match g.config with
  | none => .ok g
  | some p =>
    let blocks := g.freedBlocks (g.configs p)
    let g := g.setConfig fun c => { c with listenblocks := [], moduleblocks := [] }
    match conf with
    | none => .error .failure
    | some conf =>
      let c := g.configs conf
      .ok { g with
        released := g.released ++ blocks ++ freed c.user ++ freed c.group ++
          freed c.directory ++ [conf] }

end Nbstftp
