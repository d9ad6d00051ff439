import Kernel4GameServer.Kernel.Logicmgr
import Mathlib.Data.List.Nodup

/-!
# `Kernel4GameServer.Proofs.Kernel.Logicmgr`: all modules come up, or none

* `GetName_create`: the name of a module is its literal, cut behind 63 bytes.
* `Registry`: the map has the modules of the vector under their names, each name once. `enter_spec`
  and `load_spec` are the two loops: they go through just when the names differ.

`boot_modules` puts them together.
-/

set_option autoImplicit false

namespace Kernel4GameServer

open Lib

variable {ι : Type*}

/-! ### Names -/

/-- The name that a module has in the map. -/
def Factory.name (f : Factory ι) : List UInt8 := f.text.take 63

/-- The bytes in front of the first zero. -/
theorem cString_append {name rest : List UInt8} (hname : ∀ b ∈ name, b ≠ 0) :
    cString (name ++ 0 :: rest) = name := by
  unfold cString
  rw [List.takeWhile_append_of_pos fun b hb => by simpa using hname b hb]
  simp

/-- One cell. -/
theorem slice_one (m : Mem UInt8) (off : Int) : Mem.slice m off 1 = [m off] := by
  show [m (off + (0 : Nat))] = [m off]
  rw [Int.natCast_zero, Int.add_zero]

/-- What `SetName` finds at the literal: the name, and a zero where it is shorter than the copy. -/
theorem slice_literal (f : Factory ι) :
    ∃ rest, Mem.slice f.pName 0 63 ++ [0] = f.name ++ 0 :: rest := by
  rcases Nat.lt_or_ge f.text.length 63 with hlt | hge
  · have hsplit : Mem.slice f.pName 0 63
        = f.text ++ 0 :: Mem.slice f.pName (f.text.length + 1) (62 - f.text.length) := by
      have hlen : 63 - f.text.length = 1 + (62 - f.text.length) := by omega
      rw [Mem.slice_split f.pName 0 hlt.le, f.literal, Int.zero_add, hlen, Mem.slice_add, slice_one,
        f.terminated]
      rfl
    refine ⟨Mem.slice f.pName (f.text.length + 1) (62 - f.text.length) ++ [0], ?_⟩
    rw [hsplit, Factory.name, List.take_of_length_le hlt.le, List.append_assoc]
    rfl
  · refine ⟨[], ?_⟩
    rw [← Mem.take_slice f.pName 0 hge, f.literal]
    rfl

/-- The module that a `CREATE_MODULE` makes. -/
def Factory.module (f : Factory ι) : IModule ι := (IModule.new f.object f.fresh).SetName f.pName

/-- `GetName` gives the literal back, up to 63 bytes. -/
theorem GetName_module (f : Factory ι) : f.module.GetName = f.name := by
  obtain ⟨rest, hrest⟩ := slice_literal f
  have hcopy : Mem.slice f.module.m_pName 0 MODULE_NAME_LENGTH = Mem.slice f.pName 0 63 ++ [0] := by
    have hfront : Mem.slice f.module.m_pName 0 63 = Mem.slice f.pName 0 63 :=
      tools.SafeMemcpy_dest (by decide) (by decide)
    show Mem.slice _ 0 (63 + 1) = _
    rw [Mem.slice_add, slice_one, hfront]
    exact congrArg (fun b => Mem.slice f.pName 0 63 ++ [b]) f.module.terminated
  have hnonzero : ∀ b ∈ f.name, b ≠ 0 := fun b hb => f.nonzero b (List.mem_of_mem_take hb)
  rw [IModule.GetName, hcopy, hrest, cString_append hnonzero]

/-! ### Libraries -/

/-- A library gives its modules the last one first. -/
theorem getLogicModule_eq (lib : List (Factory ι)) :
    GetLogicModule lib = (lib.map Factory.module).reverse := by
  have hfold : ∀ chain, lib.foldl Factory.create chain
      = (lib.map Factory.module).reverse ++ chain := by
    induction lib with
    | nil => exact fun chain => rfl
    | cons f lib ih =>
        intro chain
        rw [List.foldl_cons, ih, List.map_cons, List.reverse_cons, List.append_assoc]
        rfl
  have hall := hfold []
  rwa [List.append_nil] at hall

/-- The modules in the order in which they are entered. -/
def order (libs : List (List (Factory ι))) : List (Factory ι) := libs.flatMap List.reverse

namespace Logicmgr

variable {mgr : Logicmgr ι}

/-- The map has the modules of the vector under their names, each name once. -/
structure Registry (mgr : Logicmgr ι) : Prop where
  entries : mgr.m_mapModules = mgr.m_vctModules.map fun m => (m.GetName, m)
  names : (mgr.m_vctModules.map (·.GetName)).Nodup

theorem registry_init : (init : Logicmgr ι).Registry where
  entries := rfl
  names := List.nodup_nil

/-- A name is in the map just when a module has it. -/
theorem Registry.lookup_none (h : mgr.Registry) (name : List UInt8) :
    mgr.m_mapModules.lookup name = none ↔ name ∉ mgr.m_vctModules.map (·.GetName) := by
  rw [List.lookup_eq_none_iff, h.entries]
  constructor
  · intro hall hmem
    obtain ⟨m, hm, hname⟩ := List.mem_map.mp hmem
    have hno := bne_iff_ne.mp (hall (m.GetName, m) (List.mem_map.mpr ⟨m, hm, rfl⟩))
    exact hno hname.symm
  · intro hno entry hentry
    obtain ⟨m, hm, rfl⟩ := List.mem_map.mp hentry
    exact bne_iff_ne.mpr fun heq => hno (List.mem_map.mpr ⟨m, hm, heq.symm⟩)

/-- A module with a new name is entered. -/
theorem Registry.insert (h : mgr.Registry) {m : IModule ι}
    (hnew : m.GetName ∉ mgr.m_vctModules.map (·.GetName)) : (mgr.insert m).Registry where
  entries := by
    show mgr.m_mapModules ++ [(m.GetName, m)] = (mgr.m_vctModules ++ [m]).map _
    rw [h.entries, List.map_append]
    rfl
  names := by
    show ((mgr.m_vctModules ++ [m]).map _).Nodup
    rw [List.map_append, List.map_singleton, List.nodup_append_comm]
    exact List.nodup_cons.mpr ⟨hnew, h.names⟩

/-- The loop over the modules of a library goes through just when no name is there twice. Induction
on the modules that are left. -/
theorem enter_spec (ms : List (IModule ι)) : ∀ {mgr : Logicmgr ι}, mgr.Registry →
    (mgr.enter ms).1.Registry ∧
    (mgr.enter ms).1.m_vctModules <+: mgr.m_vctModules ++ ms ∧
    ((mgr.enter ms).2 = true ↔ ((mgr.m_vctModules ++ ms).map (·.GetName)).Nodup) ∧
    ((mgr.enter ms).2 = true → (mgr.enter ms).1.m_vctModules = mgr.m_vctModules ++ ms) := by
  induction ms with
  | nil =>
      intro mgr h
      rw [List.append_nil]
      exact ⟨h, List.prefix_rfl, ⟨fun _ => h.names, fun _ => rfl⟩, fun _ => rfl⟩
  | cons m ms ih =>
      intro mgr h
      unfold enter
      cases hfind : mgr.m_mapModules.lookup m.GetName with
      | some other =>
          -- The name is there: the list has it twice.
          have hin : m.GetName ∈ mgr.m_vctModules.map (·.GetName) := by
            by_contra hnew
            rw [(h.lookup_none _).mpr hnew] at hfind
            cases hfind
          refine ⟨h, List.prefix_append _ _, ⟨(fun hno => by cases hno), fun hnodup => ?_⟩,
            fun hno => by cases hno⟩
          rw [List.map_append, List.map_cons, List.nodup_middle, List.nodup_cons] at hnodup
          exact absurd (List.mem_append_left _ hin) hnodup.1
      | none =>
          have hnew := (h.lookup_none _).mp hfind
          have hnext := ih (h.insert hnew)
          rw [show (mgr.insert m).m_vctModules = mgr.m_vctModules ++ [m] from rfl,
            List.append_assoc] at hnext
          exact hnext

/-- So does the loop over the libraries. Induction on the libraries that are left. -/
theorem load_spec (libs : List (List (Factory ι))) : ∀ {mgr : Logicmgr ι}, mgr.Registry →
    (mgr.load libs).1.Registry ∧
    (mgr.load libs).1.m_vctModules <+: mgr.m_vctModules ++ (order libs).map Factory.module ∧
    ((mgr.load libs).2 = true ↔
      ((mgr.m_vctModules ++ (order libs).map Factory.module).map (·.GetName)).Nodup) ∧
    ((mgr.load libs).2 = true →
      (mgr.load libs).1.m_vctModules = mgr.m_vctModules ++ (order libs).map Factory.module) := by
  induction libs with
  | nil =>
      intro mgr h
      show mgr.Registry ∧ mgr.m_vctModules <+: mgr.m_vctModules ++ [] ∧ _ ∧ _
      refine ⟨h, List.prefix_append _ _, ⟨fun _ => ?_, fun _ => rfl⟩, fun _ => ?_⟩
      · show ((mgr.m_vctModules ++ []).map _).Nodup
        rw [List.append_nil]
        exact h.names
      · exact (List.append_nil _).symm
  | cons lib libs ih =>
      intro mgr h
      obtain ⟨hentered, hpart, hiff, hall⟩ := enter_spec (GetLogicModule lib) h
      have hlist : mgr.m_vctModules ++ (order (lib :: libs)).map Factory.module
          = mgr.m_vctModules ++ GetLogicModule lib ++ (order libs).map Factory.module := by
        rw [getLogicModule_eq, order, List.flatMap_cons, List.map_append, List.map_reverse,
          List.append_assoc]
        rfl
      rw [hlist]
      unfold load
      cases hres : mgr.enter (GetLogicModule lib) with
      | mk mgr' through =>
          rw [hres] at hentered hpart hiff hall
          cases through with
          | true =>
              have hnext := ih hentered
              rw [hall rfl] at hnext
              exact hnext
          | false =>
              refine ⟨hentered, hpart.trans (List.prefix_append _ _),
                ⟨(fun hno => by cases hno), fun hnodup => ?_⟩, fun hno => by cases hno⟩
              rw [List.map_append] at hnodup
              exact absurd (hiff.mpr hnodup.of_append_left) Bool.false_ne_true

/-- What the map has under a name is a module of that name. -/
theorem Registry.of_lookup (h : mgr.Registry) {name : List UInt8} {m : IModule ι}
    (hfind : mgr.m_mapModules.lookup name = some m) :
    m ∈ mgr.m_vctModules ∧ m.GetName = name := by
  obtain ⟨before, after, hentries, -⟩ := List.lookup_eq_some_iff.mp hfind
  have hmem : (name, m) ∈ mgr.m_mapModules := by
    rw [hentries]
    exact List.mem_append_right _ List.mem_cons_self
  rw [h.entries] at hmem
  obtain ⟨m', hm', heq⟩ := List.mem_map.mp hmem
  obtain ⟨hname, hsame⟩ := Prod.mk.inj heq
  exact ⟨hsame ▸ hm', hsame ▸ hname⟩

/-- `FindModule` leads to the module of that name. -/
theorem Registry.FindModule_iff (h : mgr.Registry) {name : List UInt8} {i : ι} :
    mgr.FindModule name = some i ↔ ∃ m ∈ mgr.m_vctModules, m.GetName = name ∧ m.self = i := by
  unfold FindModule
  rw [Option.map_eq_some_iff]
  constructor
  · rintro ⟨m, hfind, hself⟩
    obtain ⟨hm, hname⟩ := h.of_lookup hfind
    exact ⟨m, hm, hname, hself⟩
  · rintro ⟨m, hm, hname, hself⟩
    have hsome : mgr.m_mapModules.lookup name ≠ none := by
      rw [ne_eq, h.lookup_none]
      exact fun hno => hno (List.mem_map.mpr ⟨m, hm, hname⟩)
    obtain ⟨m', hfind⟩ := Option.ne_none_iff_exists'.mp hsome
    obtain ⟨hm', hname'⟩ := h.of_lookup hfind
    -- One name, one module.
    have hsame : m' = m := List.inj_on_of_nodup_map h.names hm' hm (hname'.trans hname.symm)
    exact ⟨m', hfind, hsame ▸ hself⟩

/-! ### The start of the kernel -/

/-- The names of the modules, in the order in which they are entered. -/
theorem order_names (libs : List (List (Factory ι))) :
    ((order libs).map Factory.module).map (·.GetName) = (order libs).map Factory.name := by
  rw [List.map_map]
  exact List.map_congr_left fun f _ => GetName_module f

/-- What the loop over the libraries of the configuration comes to. -/
theorem load_init (libs : List (List (Factory ι))) :
    (init.load libs).1.Registry ∧
    (init.load libs).1.m_vctModules <+: (order libs).map Factory.module ∧
    ((init.load libs).2 = true ↔ ((order libs).map Factory.name).Nodup) ∧
    ((init.load libs).2 = true →
      (init.load libs).1.m_vctModules = (order libs).map Factory.module) := by
  have hload := load_spec libs (registry_init (ι := ι))
  rw [show (init : Logicmgr ι).m_vctModules = [] from rfl, List.nil_append, order_names] at hload
  exact hload

/-- `Initialize` returns what the loop comes to, and calls the modules where it goes through. -/
theorem Initialize_eq (libs : List (List (Factory ι))) :
    Initialize libs = ((init.load libs).1,
      if (init.load libs).2 then (init.load libs).1.launch else [], (init.load libs).2) := by
  unfold Initialize
  rcases init.load libs with ⟨mgr, _ | _⟩ <;> rfl

/-- The calls of the modules, in the order in which they are entered. -/
theorem launch_eq {fs : List (Factory ι)} (h : mgr.m_vctModules = fs.map Factory.module) :
    mgr.launch = fs.map (fun f => .Initialize f.object) ++
      fs.map (fun f => .Launched f.object) := by
  unfold launch
  rw [h, List.map_map, List.map_map]
  rfl

end Logicmgr

/-- All modules come up, or none. `Logicmgr::Initialize` goes through just when no two modules have
the same name, of which 63 bytes count. Then every module is initialized before the first one is
launched, in the order of the libraries and the last one of a library first, behind the parts that
the modules use and in front of the logger, and each is found under its name from the first call on.
Otherwise no module is called, nor is the logger. What `FindModule` leads to has the name. -/
theorem boot_modules (ok : Core → Bool) (libs : List (List (Factory ι))) :
    ((Logicmgr.Initialize libs).2.2 = true ↔ ((order libs).map Factory.name).Nodup) ∧
    (((order libs).map Factory.name).Nodup →
      (ok .Configmgr = true → ok .Timermgr = true → ok .netengine = true →
        boot ok libs = ([.core .Configmgr, .core .Timermgr, .core .netengine] ++
          (order libs).map (fun f => .module (.Initialize f.object)) ++
          (order libs).map (fun f => .module (.Launched f.object)) ++ [.core .Logger],
          ok .Logger)) ∧
      ∀ f ∈ order libs, (Logicmgr.Initialize libs).1.FindModule f.name = some f.object) ∧
    (¬ ((order libs).map Factory.name).Nodup →
      (boot ok libs).2 = false ∧
      ∀ call ∈ (boot ok libs).1, ∃ part, call = .core part ∧ part ≠ .Logger) ∧
    ∀ name i, (Logicmgr.Initialize libs).1.FindModule name = some i →
      ∃ f ∈ order libs, f.name = name ∧ f.object = i := by
  obtain ⟨hregistry, hpart, hiff, hall⟩ := Logicmgr.load_init libs
  have hinit := Logicmgr.Initialize_eq libs
  refine ⟨by rw [hinit]; exact hiff, fun hnodup => ?_, fun hdup => ?_, fun name i hfind => ?_⟩
  · have hthrough := hiff.mpr hnodup
    have hvct := hall hthrough
    rw [hthrough, if_pos rfl, Logicmgr.launch_eq hvct] at hinit
    constructor
    · intro hconfig htimer hnet
      unfold boot
      rw [if_pos hconfig, if_pos htimer, if_pos hnet, hinit]
      simp only [List.map_append, List.map_map, List.map_cons, List.map_nil, List.append_assoc]
      rfl
    · intro f hf
      rw [hinit, hregistry.FindModule_iff, hvct]
      exact ⟨f.module, List.mem_map.mpr ⟨f, hf, rfl⟩, GetName_module f, rfl⟩
  · have hstop : (Logicmgr.init.load libs).2 = false :=
      Bool.eq_false_iff.mpr fun hyes => hdup (hiff.mp hyes)
    rw [hstop, if_neg Bool.false_ne_true] at hinit
    unfold boot
    rw [hinit]
    cases ok .Configmgr <;> cases ok .Timermgr <;> cases ok .netengine <;> simp
  · rw [hinit, hregistry.FindModule_iff] at hfind
    obtain ⟨m, hm, hname, hself⟩ := hfind
    obtain ⟨f, hf, rfl⟩ := List.mem_map.mp (hpart.subset hm)
    exact ⟨f, hf, (GetName_module f).symm.trans hname, hself⟩

/-- A `CREATE_MODULE(text)` in a memory of zeros. -/
def Factory.zeroed (object : Nat) (text : List UInt8) (nonzero : ∀ b ∈ text, b ≠ 0) :
    Factory Nat where
  object
  fresh := fun _ => 0
  text
  pName := Mem.ofList text 0
  literal := Mem.slice_ofList text 0
  terminated := by simp [Mem.ofList]
  nonzero

/-- A library with the modules 1 and 2, and one with the module 3. -/
def twoLibraries : List (List (Factory Nat)) :=
  [[.zeroed 1 [71, 97] (by simp), .zeroed 2 [76, 111] (by simp)], [.zeroed 3 [71] (by simp)]]

example : (boot (fun _ => true) twoLibraries).1 =
    [.core .Configmgr, .core .Timermgr, .core .netengine, .module (.Initialize 2),
      .module (.Initialize 1), .module (.Initialize 3), .module (.Launched 2),
      .module (.Launched 1), .module (.Launched 3), .core .Logger] := by decide +kernel

end Kernel4GameServer
