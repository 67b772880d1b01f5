import Bindgen.Proofs.Merge.Pieces

/-! # What merged modules hold

The blocks at a path of names are the modules that are reached by following
the names, in source order. Merging leaves one module at each path that has a
block, and nothing that the blocks hold is lost, doubled or put in another
order.
-/

namespace Bindgen

def modulesOf (ds : List Decl) : List Module :=
  ds.filterMap Decl.module?

def interfacesOf (ds : List Decl) : List Interface :=
  ds.filterMap Decl.interface?

def modulesNamed (name : String) (ds : List Decl) : List Module :=
  (modulesOf ds).filter fun m => m.name = name

def interfacesNamed (name : String) (ds : List Decl) : List Interface :=
  (interfacesOf ds).filter fun i => i.name = name

def Decl.isPlain (d : Decl) : Bool :=
  d.module?.isNone && d.interface?.isNone

/-- The modules that are reached by following a path of names, in source order. -/
def blocksAt : List String -> List Decl -> List Module
  | [], _ => []
  | [name], ds => modulesNamed name ds
  | name :: next :: rest, ds =>
    (modulesNamed name ds).flatMap fun m => blocksAt (next :: rest) m.entries

/-- The interface holds what its declarations hold, in their order; the rest of
it comes from the first of them. -/
structure Interface.Collects (i : Interface) (parts : List Interface) : Prop where
  members : i.members = parts.flatMap Interface.members
  inherits : i.inherits = parts.flatMap Interface.inherits
  first : ∃ first ∈ parts.head?, i.isStatic = first.isStatic ∧ i.typeParams = first.typeParams

/-- The module holds what its blocks hold: plain entries in their order, one
interface and one module for each name in the order of first occurrence. -/
structure Module.Collects (m : Module) (blocks : List Module) : Prop where
  plain : m.entries.filter Decl.isPlain = blocks.flatMap fun b => b.entries.filter Decl.isPlain
  interfaceNames_nodup : ((interfacesOf m.entries).map Interface.name).Nodup
  interfaceNames : (interfacesOf m.entries).map Interface.name =
    (blocks.flatMap fun b => (interfacesOf b.entries).map Interface.name).eraseDups
  interfaces : ∀ i ∈ interfacesOf m.entries,
    i.Collects (blocks.flatMap fun b => interfacesNamed i.name b.entries)
  moduleNames_nodup : ((modulesOf m.entries).map Module.name).Nodup
  moduleNames : (modulesOf m.entries).map Module.name =
    (blocks.flatMap fun b => (modulesOf b.entries).map Module.name).eraseDups

/-! ## What one kind of merging leaves alone -/

theorem filter_mergeInterfaces {p : Decl -> Bool} (hp : ∀ d, p d = true -> d.interface? = none)
    (ds : List Decl) : (mergeInterfaces ds).filter p = ds.filter p := by
  rw [mergeInterfaces_eq_gather]
  apply Folding.filter_gather_of_forall_key_eq_none
  intro d hd
  simp [interfaceFolding, hp d hd]

theorem filter_map_mapEntries {p : Decl -> Bool} (hp : ∀ d, p d = true -> d.module? = none)
    (combine : List Decl -> List Decl) (ds : List Decl) :
    (ds.map (Decl.mapEntries combine)).filter p = ds.filter p := by
  have notModule : ∀ m, p (.module m) = false := by
    intro m
    cases h : p (.module m) with
    | false => rfl
    | true =>
        have none := hp (.module m) h
        simp [Decl.module?] at none
  induction ds with
  | nil => rfl
  | cons d ds ih =>
      cases d with
      | module m => simp [Decl.mapEntries, notModule, ih]
      | _ => simp [Decl.mapEntries, List.filter_cons, ih]

theorem filter_mergeModules {p : Decl -> Bool} (hp : ∀ d, p d = true -> d.module? = none)
    (ds : List Decl) : (mergeModules ds).filter p = ds.filter p := by
  rw [mergeModules_eq_gather, Folding.filter_gather_of_forall_key_eq_none]
  · exact filter_map_mapEntries hp mergeEntries ds
  · intro d hd
    simp [moduleFolding, hp d hd]

theorem filterMap_eq_of_filter_eq {α : Type} {f : Decl -> Option α} {ds es : List Decl}
    (h : ds.filter (fun d => (f d).isSome) = es.filter fun d => (f d).isSome) :
    ds.filterMap f = es.filterMap f := by
  have key : ∀ l : List Decl, l.filterMap f = (l.filter fun d => (f d).isSome).filterMap f := by
    intro l
    rw [List.filterMap_filter]
    congr 1
    funext d
    cases f d <;> rfl
  rw [key ds, key es, h]

theorem modulesOf_mergeInterfaces (ds : List Decl) :
    modulesOf (mergeInterfaces ds) = modulesOf ds := by
  apply filterMap_eq_of_filter_eq
  apply filter_mergeInterfaces
  intro d hd
  cases d with
  | interface i => simp [Decl.module?] at hd
  | _ => rfl

theorem interfacesOf_mergeModules (ds : List Decl) :
    interfacesOf (mergeModules ds) = interfacesOf ds := by
  apply filterMap_eq_of_filter_eq
  apply filter_mergeModules
  intro d hd
  cases d with
  | module m => simp [Decl.interface?] at hd
  | _ => rfl

theorem filter_isPlain_mergeEntries (ds : List Decl) :
    (mergeEntries ds).filter Decl.isPlain = ds.filter Decl.isPlain := by
  rw [mergeEntries, filter_mergeInterfaces, filter_mergeModules]
  · intro d hd
    simp only [Decl.isPlain, Bool.and_eq_true, Option.isNone_iff_eq_none] at hd
    exact hd.1
  · intro d hd
    simp only [Decl.isPlain, Bool.and_eq_true, Option.isNone_iff_eq_none] at hd
    exact hd.2

/-! ## Interfaces of one name -/

theorem filter_interface_key (name : String) (ds : List Decl) :
    (ds.filter fun d => interfaceFolding.key d = some name) =
      (interfacesNamed name ds).map .interface := by
  rw [← List.filterMap_eq_filter, interfacesNamed, interfacesOf, List.filter_filterMap,
    List.map_filterMap]
  congr 1
  funext d
  cases d with
  | interface i =>
      by_cases h : i.name = name <;>
        simp [Option.guard, interfaceFolding, Decl.interface?, Option.filter, h]
  | _ => rfl

theorem foldl_join_interfaces (i : Interface) (is : List Interface) :
    (is.map .interface).foldl interfaceFolding.join (.interface i) =
      .interface (is.foldl Interface.absorb i) := by
  induction is generalizing i with
  | nil => rfl
  | cons j js ih => exact ih (i.absorb j)

theorem interfacesNamed_mergeInterfaces (name : String) (ds : List Decl) :
    interfacesNamed name (mergeInterfaces ds) =
      match interfacesNamed name ds with
      | [] => []
      | i :: is => [is.foldl Interface.absorb i] := by
  apply (List.map_inj_right fun _ _ => Decl.interface.inj).mp
  rw [← filter_interface_key, mergeInterfaces_eq_gather, Folding.filter_key_gather,
    filter_interface_key]
  cases interfacesNamed name ds with
  | nil => rfl
  | cons i is => simp [foldl_join_interfaces]

theorem collects_foldl_absorb (i : Interface) (is : List Interface) :
    (is.foldl Interface.absorb i).Collects (i :: is) := by
  induction is generalizing i with
  | nil => exact ⟨by simp, by simp, i, by simp, rfl, rfl⟩
  | cons j js ih =>
      obtain ⟨members, inherits, first, hfirst, isStatic, typeParams⟩ := ih (i.absorb j)
      obtain rfl : i.absorb j = first := by simpa using hfirst
      refine ⟨?_, ?_, i, by simp, isStatic, typeParams⟩
      · rw [List.foldl_cons, members]
        simp [Interface.absorb]
      · rw [List.foldl_cons, inherits]
        simp [Interface.absorb]

theorem interface_collects {i : Interface} {ds : List Decl}
    (h : i ∈ interfacesOf (mergeInterfaces ds)) : i.Collects (interfacesNamed i.name ds) := by
  have named : i ∈ interfacesNamed i.name (mergeInterfaces ds) :=
    List.mem_filter.mpr ⟨h, by simp⟩
  rw [interfacesNamed_mergeInterfaces] at named
  cases hds : interfacesNamed i.name ds with
  | nil => simp [hds] at named
  | cons j js =>
      obtain rfl : i = js.foldl Interface.absorb j := by simpa [hds] using named
      exact collects_foldl_absorb j js

/-! ## Modules of one name -/

theorem filter_module_key (combine : List Decl -> List Decl) (name : String) (ds : List Decl) :
    (ds.filter fun d => (moduleFolding combine).key d = some name) =
      (modulesNamed name ds).map .module := by
  rw [← List.filterMap_eq_filter, modulesNamed, modulesOf, List.filter_filterMap,
    List.map_filterMap]
  congr 1
  funext d
  cases d with
  | module m =>
      by_cases h : m.name = name <;>
        simp [Option.guard, moduleFolding, Decl.module?, Option.filter, h]
  | _ => rfl

theorem modulesNamed_map_mapEntries (combine : List Decl -> List Decl) (name : String)
    (ds : List Decl) :
    modulesNamed name (ds.map (Decl.mapEntries combine)) =
      (modulesNamed name ds).map fun m => { m with entries := combine m.entries } := by
  have modules : modulesOf (ds.map (Decl.mapEntries combine)) =
      (modulesOf ds).map fun m => { m with entries := combine m.entries } := by
    rw [modulesOf, modulesOf, List.filterMap_map, List.map_filterMap]
    congr 1
    funext d
    cases d <;> rfl
  rw [modulesNamed, modules, List.filter_map]
  rfl

theorem foldl_join_modules {combine : List Decl -> List Decl} (hc : Piecewise combine)
    (m : Module) (ms : List Module) :
    (ms.map fun b => Decl.module { b with entries := combine b.entries }).foldl
        (moduleFolding combine).join (.module { m with entries := combine m.entries }) =
      .module { m with entries := combine ((m :: ms).flatMap Module.entries) } := by
  induction ms generalizing m with
  | nil => simp
  | cons b bs ih =>
      have step : (moduleFolding combine).join (.module { m with entries := combine m.entries })
          (.module { b with entries := combine b.entries }) =
            .module { m with entries := combine (m.entries ++ b.entries) } := by
        simp only [moduleFolding, hc.append]
      rw [List.map_cons, List.foldl_cons, step]
      simpa using ih { m with entries := m.entries ++ b.entries }

/-- All blocks of one name become one module with their entries merged. -/
theorem modulesNamed_mergeModules (name : String) (ds : List Decl) :
    modulesNamed name (mergeModules ds) =
      match modulesNamed name ds with
      | [] => []
      | m :: ms => [{ m with entries := mergeEntries ((m :: ms).flatMap Module.entries) }] := by
  apply (List.map_inj_right fun _ _ => Decl.module.inj).mp
  rw [← filter_module_key mergeEntries, mergeModules_eq_gather, Folding.filter_key_gather,
    filter_module_key, modulesNamed_map_mapEntries]
  cases modulesNamed name ds with
  | nil => rfl
  | cons m ms =>
      have joined := foldl_join_modules piecewise_mergeEntries m ms
      simpa [Function.comp_def] using joined

theorem modulesNamed_mergeEntries (name : String) (ds : List Decl) :
    modulesNamed name (mergeEntries ds) = modulesNamed name (mergeModules ds) := by
  rw [modulesNamed, mergeEntries, modulesOf_mergeInterfaces, modulesNamed]

theorem File.modules_merge_single (name : String) (opens : List String) (m : Module) :
    (File.merge ⟨name, opens, [m]⟩).modules = [⟨m.name, mergeEntries m.entries⟩] := by
  rw [File.merge, mergeModules_eq_gather, List.map_singleton, List.map_singleton,
    Folding.gather_eq_singleton nofun]
  rfl

/-! ## Names in the order of first occurrence -/

theorem map_name_interfacesOf (ds : List Decl) :
    (interfacesOf ds).map Interface.name = ds.filterMap interfaceFolding.key :=
  List.map_filterMap

theorem map_name_modulesOf (combine : List Decl -> List Decl) (ds : List Decl) :
    (modulesOf ds).map Module.name = ds.filterMap (moduleFolding combine).key :=
  List.map_filterMap

theorem interfaceNames_mergeEntries (ds : List Decl) :
    (interfacesOf (mergeEntries ds)).map Interface.name =
      ((interfacesOf ds).map Interface.name).eraseDups := by
  rw [map_name_interfacesOf, mergeEntries, mergeInterfaces_eq_gather,
    Folding.filterMap_key_gather, ← map_name_interfacesOf, interfacesOf_mergeModules]

theorem nodup_interfaceNames_mergeEntries (ds : List Decl) :
    ((interfacesOf (mergeEntries ds)).map Interface.name).Nodup := by
  rw [map_name_interfacesOf, mergeEntries, mergeInterfaces_eq_gather]
  exact Folding.nodup_filterMap_key_gather _

theorem moduleNames_mergeEntries (ds : List Decl) :
    (modulesOf (mergeEntries ds)).map Module.name =
      ((modulesOf ds).map Module.name).eraseDups := by
  have keys : (moduleFolding mergeEntries).key ∘ Decl.mapEntries mergeEntries =
      (moduleFolding mergeEntries).key := by
    funext d
    cases d <;> rfl
  rw [mergeEntries, modulesOf_mergeInterfaces, mergeModules_eq_gather,
    map_name_modulesOf mergeEntries, Folding.filterMap_key_gather, List.filterMap_map, keys,
    ← map_name_modulesOf]

theorem nodup_moduleNames_mergeEntries (ds : List Decl) :
    ((modulesOf (mergeEntries ds)).map Module.name).Nodup := by
  rw [mergeEntries, modulesOf_mergeInterfaces, mergeModules_eq_gather,
    map_name_modulesOf mergeEntries]
  exact Folding.nodup_filterMap_key_gather _

/-! ## Blocks at a path -/

theorem interfacesNamed_mergeModules (name : String) (ds : List Decl) :
    interfacesNamed name (mergeModules ds) = interfacesNamed name ds := by
  rw [interfacesNamed, interfacesOf_mergeModules, interfacesNamed]

theorem collects_mergeEntries (name : String) (blocks : List Module) :
    Module.Collects ⟨name, mergeEntries (blocks.flatMap Module.entries)⟩ blocks where
  plain := by rw [filter_isPlain_mergeEntries, List.filter_flatMap]
  interfaceNames_nodup := nodup_interfaceNames_mergeEntries _
  interfaceNames := by
    rw [interfaceNames_mergeEntries, interfacesOf, List.filterMap_flatMap, List.map_flatMap]
    rfl
  interfaces i hi := by
    have parts := interface_collects hi
    rw [interfacesNamed_mergeModules, interfacesNamed, interfacesOf, List.filterMap_flatMap,
      List.filter_flatMap] at parts
    exact parts
  moduleNames_nodup := nodup_moduleNames_mergeEntries _
  moduleNames := by
    rw [moduleNames_mergeEntries, modulesOf, List.filterMap_flatMap, List.map_flatMap]
    rfl

theorem modulesNamed_flatMap (name : String) (ms : List Module) :
    modulesNamed name (ms.flatMap Module.entries) =
      ms.flatMap fun m => modulesNamed name m.entries := by
  rw [modulesNamed, modulesOf, List.filterMap_flatMap, List.filter_flatMap]
  rfl

theorem blocksAt_flatMap (path : List String) (ms : List Module) :
    blocksAt path (ms.flatMap Module.entries) = ms.flatMap fun m => blocksAt path m.entries := by
  cases path with
  | nil => simp [blocksAt]
  | cons name rest =>
      cases rest with
      | nil => exact modulesNamed_flatMap name ms
      | cons next rest =>
          simp only [blocksAt, modulesNamed_flatMap, List.flatMap_assoc]

theorem blocksAt_mergeEntries (path : List String) (ds : List Decl) :
    blocksAt path (mergeEntries ds) = blocksAt path (mergeModules ds) := by
  cases path with
  | nil => rfl
  | cons name rest =>
      cases rest with
      | nil => exact modulesNamed_mergeEntries name ds
      | cons next rest => simp only [blocksAt, modulesNamed_mergeEntries]

/-- Merging loses, doubles and reorders nothing: at each path of names there is
one module if there are blocks at it and none otherwise, and it holds what the
blocks hold. -/
theorem mergeModules_collects_blocks (path : List String) (ds : List Decl) :
    (blocksAt path ds = [] ∧ blocksAt path (mergeModules ds) = []) ∨
      (blocksAt path ds ≠ [] ∧
        ∃ m, blocksAt path (mergeModules ds) = [m] ∧ m.Collects (blocksAt path ds)) := by
  induction path generalizing ds with
  | nil => exact .inl ⟨rfl, rfl⟩
  | cons name rest ih =>
      have merged := modulesNamed_mergeModules name ds
      cases rest with
      | nil =>
          simp only [blocksAt]
          cases h : modulesNamed name ds with
          | nil => exact .inl ⟨rfl, by simpa [h] using merged⟩
          | cons m ms =>
              refine .inr ⟨by simp, _, by simpa [h] using merged, ?_⟩
              exact collects_mergeEntries m.name (m :: ms)
      | cons next rest =>
          simp only [blocksAt, merged]
          cases h : modulesNamed name ds with
          | nil => exact .inl ⟨rfl, rfl⟩
          | cons m ms =>
              -- Below the first name, the blocks are those of all entries together.
              rw [← blocksAt_flatMap]
              simpa [blocksAt_mergeEntries] using ih ((m :: ms).flatMap Module.entries)

end Bindgen
