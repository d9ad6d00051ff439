import Kernel4GameServer.Public.Tools

/-!
# `Kernel4GameServer.Kernel.Logicmgr`: how the modules come up

`API/IModule.h`, `kernel/logicmgr/Logicmgr.cpp` and `Kernel::Initialize`. A library of modules puts
a `CREATE_MODULE(name);` for each into its sources. The constructors behind them run in the order of
the source when the library is opened, and link the modules into the list that `GetLogicModule`
returns. `Logicmgr::Initialize` opens the libraries of the configuration in their order and enters
each module under its name. A name that is there already ends it.

`Factory` is a `CREATE_MODULE`: the object that it makes, what is in its memory before, and the
literal `#name`. `SetName` copies `MODULE_NAME_LENGTH - 1` bytes from there, however short the
literal is. A `map<string, IModule *>` is the list of its entries.

The `TASSERT`s are those of a build without `_DEBUG`, which are empty. So a library without modules
is passed over, where a build with `_DEBUG` ends, as it does at a name that is there already. A
library that cannot be opened is left out.
-/

set_option autoImplicit false

namespace Kernel4GameServer

open Lib

/-- `MODULE_NAME_LENGTH`. -/
def MODULE_NAME_LENGTH : Nat := 64

/-- The bytes of a C string, up to its zero. -/
def cString (bytes : List UInt8) : List UInt8 := bytes.takeWhile (· ≠ 0)

/-- A module. The last byte of its name is zero. -/
structure IModule (ι : Type*) where
  self : ι
  m_pName : Mem UInt8
  terminated : m_pName 63 = 0

namespace IModule

variable {ι : Type*}

/-- `IModule()` in the memory `fresh`. -/
def new (self : ι) (fresh : Mem UInt8) : IModule ι where
  self := self
  m_pName := fun i => if i = 63 then 0 else fresh i
  terminated := rfl

/-- The copy of `SetName` ends in front of the last byte. -/
theorem copy_last (m_pName pName : Mem UInt8) :
    tools.SafeMemcpy m_pName 0 MODULE_NAME_LENGTH pName 0 (MODULE_NAME_LENGTH - 1) 63
      = m_pName 63 := by
  simp [tools.SafeMemcpy, sizeT, MODULE_NAME_LENGTH]

/-- `SetName(pName)`. -/
def SetName (m : IModule ι) (pName : Mem UInt8) : IModule ι where
  self := m.self
  m_pName := tools.SafeMemcpy m.m_pName 0 MODULE_NAME_LENGTH pName 0 (MODULE_NAME_LENGTH - 1)
  terminated := (copy_last m.m_pName pName).trans m.terminated

/-- `GetName()` as a string. -/
def GetName (m : IModule ι) : List UInt8 := cString (Mem.slice m.m_pName 0 MODULE_NAME_LENGTH)

end IModule

/-- A `CREATE_MODULE(text)` with the literal at `pName`. -/
structure Factory (ι : Type*) where
  object : ι
  fresh : Mem UInt8
  text : List UInt8
  pName : Mem UInt8
  literal : Mem.slice pName 0 text.length = text
  terminated : pName text.length = 0
  nonzero : ∀ b ∈ text, b ≠ 0

/-- The constructor behind a `CREATE_MODULE`. -/
def Factory.create {ι : Type*} (plogicModule : List (IModule ι)) (f : Factory ι) :
    List (IModule ι) :=
  ((IModule.new f.object f.fresh).SetName f.pName) :: plogicModule

/-- `GetLogicModule()` of a library, the modules along their `m_pNextModule`. -/
def GetLogicModule {ι : Type*} (lib : List (Factory ι)) : List (IModule ι) :=
  lib.foldl Factory.create []

/-- A call of a module. -/
inductive ModuleCall (ι : Type*) where
  | Initialize (self : ι)
  | Launched (self : ι)
  deriving DecidableEq, Repr

/-- `Logicmgr`. -/
structure Logicmgr (ι : Type*) where
  m_vctModules : List (IModule ι)
  m_mapModules : List (List UInt8 × IModule ι)

namespace Logicmgr

variable {ι : Type*}

/-- `Logicmgr()`. -/
def init : Logicmgr ι where
  m_vctModules := []
  m_mapModules := []

/-- `m_vctModules.push_back(plogic); m_mapModules.insert(make_pair(pName, plogic));`. -/
def insert (mgr : Logicmgr ι) (plogic : IModule ι) : Logicmgr ι where
  m_vctModules := mgr.m_vctModules ++ [plogic]
  m_mapModules := mgr.m_mapModules ++ [(plogic.GetName, plogic)]

/-- The loop over the modules of a library, with whether it went through. -/
def enter (mgr : Logicmgr ι) : List (IModule ι) → Logicmgr ι × Bool
  | [] => (mgr, true)
  | plogic :: rest =>
      match mgr.m_mapModules.lookup plogic.GetName with
      | some _ => (mgr, false)
      | none => (mgr.insert plogic).enter rest

/-- The loop over the libraries. -/
def load (mgr : Logicmgr ι) : List (List (Factory ι)) → Logicmgr ι × Bool
  | [] => (mgr, true)
  | lib :: libs =>
      match mgr.enter (GetLogicModule lib) with
      | (mgr, true) => mgr.load libs
      | (mgr, false) => (mgr, false)

/-- The two loops over `m_vctModules`. -/
def launch (mgr : Logicmgr ι) : List (ModuleCall ι) :=
  mgr.m_vctModules.map (fun m => .Initialize m.self) ++
    mgr.m_vctModules.map (fun m => .Launched m.self)

/-- `Initialize()`: the manager behind it, the calls it makes, and the result. -/
def Initialize (libs : List (List (Factory ι))) : Logicmgr ι × List (ModuleCall ι) × Bool :=
  match init.load libs with
  | (mgr, true) => (mgr, mgr.launch, true)
  | (mgr, false) => (mgr, [], false)

/-- `FindModule(name)`. -/
def FindModule (mgr : Logicmgr ι) (name : List UInt8) : Option ι :=
  (mgr.m_mapModules.lookup name).map (·.self)

end Logicmgr

/-- The parts of the kernel besides the modules. -/
inductive Core where
  | Configmgr
  | Timermgr
  | netengine
  | Logger
  deriving DecidableEq, Repr

/-- What `Kernel::Initialize` calls: `Initialize` of a part, or a module. -/
inductive BootCall (ι : Type*) where
  | core (part : Core)
  | module (call : ModuleCall ι)
  deriving DecidableEq, Repr

/-- `Kernel::Initialize()` where the parts answer `ok`: the calls and the result. -/
def boot {ι : Type*} (ok : Core → Bool) (libs : List (List (Factory ι))) :
    List (BootCall ι) × Bool :=
  if ok .Configmgr then
    if ok .Timermgr then
      if ok .netengine then
        match Logicmgr.Initialize libs with
        | (_, calls, true) =>
            (([.Configmgr, .Timermgr, .netengine].map .core ++ calls.map .module ++
              [.core .Logger]), ok .Logger)
        | (_, calls, false) =>
            ([.Configmgr, .Timermgr, .netengine].map .core ++ calls.map .module, false)
      else ([.Configmgr, .Timermgr, .netengine].map .core, false)
    else ([.Configmgr, .Timermgr].map .core, false)
  else ([.core .Configmgr], false)

end Kernel4GameServer
