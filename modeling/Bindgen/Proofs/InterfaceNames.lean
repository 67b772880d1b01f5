import Bindgen.Generate
import Bindgen.Proofs.Merge.Contents
import Bindgen.Proofs.Outline
import Bindgen.Proofs.Printable
import Bindgen.Proofs.Reading.Declarations
import Mathlib.Data.List.Nodup

/-! # Names of interfaces

Merging leaves interfaces of different names in every module. Preparing makes
up names of its own, for the holders of static members and for the exports, and
then spells all names anew. The names that come of it are known, so it is known
when they are different again: exactly if no name that was made up is spelled
like another name, and no two declared names are spelled alike.
-/

namespace Bindgen

def Module.interfaceNames (m : Module) : List String :=
  (interfacesOf m.entries).map Interface.name

def Interface.isSplit (i : Interface) : Bool :=
  !i.isStatic && i.hasStaticMembers

def Module.splitNames (m : Module) : List String :=
  ((interfacesOf m.entries).filter Interface.isSplit).map Interface.name

def Module.exportNames (settings : Settings) (m : Module) : List String :=
  if m.entries.any (Decl.isValue settings) then [settings.exportsName] else []

/-- The names of what comes of an interface, before they are spelled. -/
def Interface.givenNames (suffix : String) (i : Interface) : List String :=
  if i.isSplit then [i.name, i.name ++ suffix] else [i.name]

/-- The names that preparing gives to the interfaces of a module, before they are
spelled. -/
def Module.givenNames (settings : Settings) (m : Module) : List String :=
  m.exportNames settings ++
    (interfacesOf m.entries).flatMap (Interface.givenNames settings.staticSuffix)

/-- No two names that preparing gives to interfaces of the module are spelled
alike. -/
structure Module.NoClash (settings : Settings) (m : Module) : Prop where
  declared : ∀ a ∈ m.interfaceNames, ∀ b ∈ m.interfaceNames,
    Word.escape a = Word.escape b -> a = b
  holders : ∀ a ∈ m.splitNames, ∀ b ∈ m.splitNames,
    Word.escape (a ++ settings.staticSuffix) = Word.escape (b ++ settings.staticSuffix) -> a = b
  holder_declared : ∀ a ∈ m.splitNames, ∀ b ∈ m.interfaceNames,
    Word.escape (a ++ settings.staticSuffix) ≠ Word.escape b
  exports_declared : ∀ a ∈ m.exportNames settings, ∀ b ∈ m.interfaceNames,
    Word.escape a ≠ Word.escape b
  exports_holder : ∀ a ∈ m.exportNames settings, ∀ b ∈ m.splitNames,
    Word.escape a ≠ Word.escape (b ++ settings.staticSuffix)

/-! ## Given names -/

theorem flatMap_givenNames_perm (suffix : String) (is : List Interface) :
    (is.flatMap (Interface.givenNames suffix)).Perm
      (is.map Interface.name ++
        ((is.filter Interface.isSplit).map Interface.name).map (· ++ suffix)) := by
  induction is with
  | nil => exact .refl _
  | cons i is ih =>
      cases split : i.isSplit with
      | false => simpa [Interface.givenNames, split] using ih.cons i.name
      | true =>
          have holder := (ih.cons (i.name ++ suffix)).trans List.perm_middle.symm
          simpa [Interface.givenNames, split] using holder.cons i.name

theorem Module.givenNames_perm (settings : Settings) (m : Module) :
    (m.givenNames settings).Perm
      (m.exportNames settings ++
        (m.interfaceNames ++ m.splitNames.map (· ++ settings.staticSuffix))) :=
  (flatMap_givenNames_perm settings.staticSuffix (interfacesOf m.entries)).append_left _

theorem Module.nodup_splitNames {m : Module} (h : m.interfaceNames.Nodup) : m.splitNames.Nodup :=
  h.sublist (List.filter_sublist.map Interface.name)

theorem Module.nodup_givenNames_iff (settings : Settings) {m : Module}
    (h : m.interfaceNames.Nodup) :
    ((m.givenNames settings).map Word.escape).Nodup ↔ m.NoClash settings := by
  have exports : ((m.exportNames settings).map Word.escape).Nodup := by
    unfold Module.exportNames
    split <;> simp
  have declared := List.nodup_map_iff_inj_on (f := Word.escape) h
  have holders := List.nodup_map_iff_inj_on
    (f := fun name => Word.escape (name ++ settings.staticSuffix)) (Module.nodup_splitNames h)
  rw [((m.givenNames_perm settings).map Word.escape).nodup_iff, List.map_append, List.map_append,
    List.map_map, List.nodup_append, List.nodup_append]
  simp only [Function.comp_def, declared, holders, exports, true_and, List.mem_append,
    List.forall_mem_map]
  constructor
  · rintro ⟨⟨declared, holders, apart⟩, made⟩
    refine ⟨declared, holders, ?_, ?_, ?_⟩
    · exact fun a ha b hb same => apart b hb a ha same.symm
    · exact fun a ha b hb => made a ha _ (.inl (List.mem_map_of_mem hb))
    · exact fun a ha b hb =>
        made a ha _ (.inr (List.mem_map.mpr ⟨b, hb, rfl⟩))
  · intro clash
    refine ⟨⟨clash.declared, clash.holders, ?_⟩, ?_⟩
    · exact fun a ha b hb same => clash.holder_declared b hb a ha same.symm
    · rintro a ha name (declared | holder)
      · obtain ⟨b, hb, rfl⟩ := List.mem_map.mp declared
        exact clash.exports_declared a ha b hb
      · obtain ⟨b, hb, rfl⟩ := List.mem_map.mp holder
        exact clash.exports_holder a ha b hb

/-! ## Entries of prepared modules -/

def Head.interfaceName? : Head -> Option String
  | .interface _ _ name => some name
  | _ => none

theorem map_name_interfacesOf_eq_heads (ds : List Decl) :
    (interfacesOf ds).map Interface.name = (ds.map Decl.head).filterMap Head.interfaceName? := by
  rw [interfacesOf, List.map_filterMap, List.filterMap_map]
  congr 1
  funext d
  cases d <;> rfl

theorem Head.interfaceName?_specialize_escape (h : Head) :
    h.escape.specialize.interfaceName? = h.interfaceName?.map Word.escape := by
  have specialized : ∀ h : Head, h.specialize.interfaceName? = h.interfaceName? := by
    intro h
    unfold Head.specialize
    split <;> rfl
  rw [specialized]
  cases h <;> rfl

theorem mem_modulesOf {m : Module} {ds : List Decl} : m ∈ modulesOf ds ↔ .module m ∈ ds := by
  rw [modulesOf, List.mem_filterMap]
  constructor
  · rintro ⟨d, hd, isModule⟩
    cases d with
    | module n => rwa [← Option.some.inj isModule]
    | _ => cases isModule
  · exact fun hm => ⟨_, hm, rfl⟩

section

variable (settings : Settings) (path : List String)

theorem Decl.filterMap_interfaceName?_split (d : Decl) :
    ((d.head.settled settings).split settings.staticSuffix).filterMap Head.interfaceName? =
      d.interface?.toList.flatMap (Interface.givenNames settings.staticSuffix) := by
  cases d with
  | interface i =>
      cases isStatic : i.isStatic <;> cases hasStatic : i.hasStaticMembers <;>
        simp [Decl.head, Head.settled, Head.toImport, Head.split, Head.interfaceName?,
          Decl.interface?, Interface.givenNames, Interface.isSplit, isStatic, hasStatic]
  | var v =>
      cases declared : v.declared <;> cases convert : settings.convertImports <;>
        simp [Decl.head, Head.settled, Head.toImport, Head.split, Head.interfaceName?,
          Decl.interface?, declared, convert]
  | _ =>
      unfold Head.settled
      split <;> rfl

theorem Decl.interfaceNames_prepared (d : Decl) :
    (interfacesOf (d.prepared settings path)).map Interface.name =
      (d.interface?.toList.flatMap (Interface.givenNames settings.staticSuffix)).map
        Word.escape := by
  rw [map_name_interfacesOf_eq_heads, Decl.map_head_prepared, List.filterMap_map,
    ← Decl.filterMap_interfaceName?_split, List.map_filterMap]
  congr 1
  funext h
  exact h.interfaceName?_specialize_escape

/-- Modules come of modules only. -/
theorem Decl.modulesOf_prepared (d : Decl) :
    modulesOf (d.prepared settings path) =
      d.module?.toList.map (Module.prepared settings path) := by
  cases isModule : d.module? with
  | some m =>
      obtain rfl : d = .module m := by
        cases d <;> simp_all [Decl.module?]
      rw [Decl.prepared_module]
      rfl
  | none =>
      rw [modulesOf, Option.toList_none, List.map_nil, List.filterMap_eq_nil_iff]
      intro e he
      have head : e.head ∈ (d.prepared settings path).map Decl.head := List.mem_map_of_mem he
      rw [Decl.map_head_prepared] at head
      obtain ⟨h, hh, spelled⟩ := List.mem_map.mp head
      have plain : e.head.isModule = false := by
        rw [← spelled, Head.isModule_specialize_escape, Head.isModule_of_mem_split hh,
          Decl.isModule_settled, isModule]
        rfl
      cases e with
      | module n => cases plain
      | _ => rfl

theorem Decl.spelled_interface (i : Interface) :
    ∃ j, (Decl.interface i).spelled settings = .interface j ∧ j.name = Word.escape i.name := by
  have head := (Decl.interface i).head_spelled settings
  cases spelled : (Decl.interface i).spelled settings with
  | interface j =>
      rw [spelled] at head
      have names := congrArg Head.interfaceName? head
      exact ⟨j, rfl, Option.some.inj names⟩
  | _ =>
      rw [spelled] at head
      cases head

/-- What comes of the entries stands behind the exports interface. -/
theorem Module.entries_prepared (m : Module) :
    ∃ exports : List Interface,
      (m.prepared settings path).entries = exports.map .interface ++
          m.entries.flatMap (Decl.prepared settings (pathInside path m.name)) ∧
        exports.map Interface.name = (m.exportNames settings).map Word.escape := by
  have entries : (m.entries.flatMap fun d => (Decl.splitStatic settings.staticSuffix
      (d.settled settings (pathInside path m.name))).map fun e =>
        (e.rewrite (.addExports settings.exportsName settings.staticSuffix)).spelled settings) =
      m.entries.flatMap (Decl.prepared settings (pathInside path m.name)) := rfl
  rw [Module.prepared_eq, withExports_eq, any_isExported_split, List.map_append, ← entries]
  simp only [List.map_flatMap, List.map_map, Function.comp_def, Module.exportNames]
  split
  · obtain ⟨j, spelled, name⟩ := Decl.spelled_interface settings (exportsInterface _ _)
    exact ⟨[j], by rw [List.map_singleton, spelled]; rfl, by rw [List.map_singleton, name]; rfl⟩
  · exact ⟨[], rfl, rfl⟩

theorem Module.interfaceNames_prepared (m : Module) :
    (m.prepared settings path).interfaceNames = (m.givenNames settings).map Word.escape := by
  obtain ⟨exports, entries, names⟩ := m.entries_prepared settings path
  have first : interfacesOf (exports.map .interface) = exports := by
    simp [interfacesOf, List.filterMap_map, Function.comp_def, Decl.interface?]
  have rest : (interfacesOf (m.entries.flatMap
      (Decl.prepared settings (pathInside path m.name)))).map Interface.name =
        ((interfacesOf m.entries).flatMap (Interface.givenNames settings.staticSuffix)).map
          Word.escape := by
    rw [interfacesOf, List.filterMap_flatMap, List.map_flatMap, interfacesOf,
      List.filterMap_eq_flatMap_toList _ m.entries, List.flatMap_assoc, List.map_flatMap]
    exact List.flatMap_congr fun d _ => d.interfaceNames_prepared settings _
  rw [Module.givenNames, List.map_append, ← names, ← rest, Module.interfaceNames, entries,
    interfacesOf, List.filterMap_append, List.map_append, ← interfacesOf, first]
  rfl

theorem Module.modulesOf_prepared (m : Module) :
    modulesOf (m.prepared settings path).entries =
      (modulesOf m.entries).map (Module.prepared settings (pathInside path m.name)) := by
  obtain ⟨exports, entries, -⟩ := m.entries_prepared settings path
  have first : modulesOf (exports.map .interface) = [] := by
    simp [modulesOf, List.filterMap_map, Function.comp_def, Decl.module?]
  rw [entries, modulesOf, List.filterMap_append, ← modulesOf, first, List.nil_append,
    List.filterMap_flatMap, modulesOf, List.filterMap_eq_flatMap_toList _ m.entries,
    List.map_flatMap]
  exact List.flatMap_congr fun d _ => d.modulesOf_prepared settings _

end

/-! ## Modules at all depths -/

section

variable {settings : Settings} {f g : File}

theorem File.Reaches.prepared
    (modules : g.modules = f.modules.map (Module.prepared settings [f.name])) {m : Module}
    (h : f.Reaches m) : ∃ path, g.Reaches (m.prepared settings path) := by
  induction h with
  | top hm => exact ⟨[f.name], .top (modules ▸ List.mem_map_of_mem hm)⟩
  | @nested outer inner _ hinner ih =>
      obtain ⟨path, reached⟩ := ih
      have there : inner.prepared settings (pathInside path outer.name) ∈
          modulesOf (outer.prepared settings path).entries := by
        rw [Module.modulesOf_prepared]
        exact List.mem_map_of_mem (mem_modulesOf.mpr hinner)
      exact ⟨_, .nested reached (mem_modulesOf.mp there)⟩

theorem File.Reaches.of_prepared
    (modules : g.modules = f.modules.map (Module.prepared settings [f.name])) {n : Module}
    (h : g.Reaches n) : ∃ m path, f.Reaches m ∧ m.prepared settings path = n := by
  induction h with
  | top hn =>
      rw [modules] at hn
      obtain ⟨m, hm, rfl⟩ := List.mem_map.mp hn
      exact ⟨m, _, .top hm, rfl⟩
  | nested _ hinner ih =>
      obtain ⟨m, path, reached, rfl⟩ := ih
      have inner := mem_modulesOf.mpr hinner
      rw [Module.modulesOf_prepared] at inner
      obtain ⟨before, hbefore, rfl⟩ := List.mem_map.mp inner
      exact ⟨before, _, .nested reached (mem_modulesOf.mp hbefore), rfl⟩

end

/-- The entries of a merged module have been merged, whether it was folded or not. -/
theorem entries_of_mem_mergeModules {m : Module} {ds : List Decl}
    (h : .module m ∈ mergeModules ds) : ∃ es, m.entries = mergeEntries es := by
  rw [mergeModules_eq_gather] at h
  refine Folding.forall_mem_gather
    (p := fun d => ∀ m, d = .module m -> ∃ es, m.entries = mergeEntries es) ?_ ?_ _ h m rfl
  · intro a b ha hb m hm
    cases a with
    | module first =>
        cases b with
        | module later =>
            cases hm
            exact ⟨_, rfl⟩
        | _ => exact ha m hm
    | _ => cases hm
  · intro d hd m hm
    obtain ⟨e, -, rfl⟩ := List.mem_map.mp hd
    cases e with
    | module n =>
        cases hm
        exact ⟨_, rfl⟩
    | _ => cases hm

theorem File.Reaches.merged {f : File} {m : Module} (h : f.merge.Reaches m) :
    ∃ es, m.entries = mergeEntries es := by
  induction h with
  | top hm => exact entries_of_mem_mergeModules (mem_modulesOf.mp hm)
  | nested _ hinner ih =>
      obtain ⟨es, entries⟩ := ih
      rw [entries, ← mem_modulesOf, mergeEntries, modulesOf_mergeInterfaces, mem_modulesOf]
        at hinner
      exact entries_of_mem_mergeModules hinner

theorem File.read_eq_merge {settings : Settings} {path rootName : String} {tree : Syntax.Node}
    {f : File} (h : (File.read settings path rootName tree).outcome = .ok f) :
    ∃ entries, f = File.merge ⟨rootName, settings.opens, [⟨"", entries⟩]⟩ := by
  obtain ⟨entries, -, done⟩ := Traced.ok_of_bind h
  exact ⟨entries, (Except.ok.inj done).symm⟩

/-- Interfaces that were read have different names in every module. The prepared
module has the names that were given, as they are spelled. In the whole file
they are different exactly if no module has a clash. -/
theorem prepare_interfaceNames_nodup_iff {settings : Settings} {path rootName : String}
    {tree : Syntax.Node} {f : File}
    (read : (File.read settings path rootName tree).outcome = .ok f) :
    ∃ g, (f.prepare settings).outcome = .ok g ∧
      (∀ m, f.Reaches m -> m.interfaceNames.Nodup) ∧
      (∀ m, f.Reaches m -> ∃ n, g.Reaches n ∧
        n.interfaceNames = (m.givenNames settings).map Word.escape) ∧
      (∀ n, g.Reaches n -> ∃ m, f.Reaches m ∧
        n.interfaceNames = (m.givenNames settings).map Word.escape) ∧
      ((∀ n, g.Reaches n -> n.interfaceNames.Nodup) ↔ ∀ m, f.Reaches m -> m.NoClash settings) := by
  obtain ⟨g, prepared, modules⟩ : ∃ g, (f.prepare settings).outcome = .ok g ∧
      g.modules = f.modules.map (Module.prepared settings [f.name]) := by
    obtain ⟨opens, prepared⟩ := prepare_outcome settings f
    exact ⟨_, prepared, rfl⟩
  have distinct : ∀ m, f.Reaches m -> m.interfaceNames.Nodup := by
    intro m reached
    obtain ⟨entries, rfl⟩ := File.read_eq_merge read
    obtain ⟨es, merged⟩ := reached.merged
    rw [Module.interfaceNames, merged]
    exact nodup_interfaceNames_mergeEntries es
  refine ⟨g, prepared, distinct, ?forth, ?back, ?clash⟩
  case forth =>
      intro m reached
      obtain ⟨place, there⟩ := reached.prepared modules
      exact ⟨_, there, m.interfaceNames_prepared settings place⟩
  case back =>
      intro n reached
      obtain ⟨m, place, there, rfl⟩ := reached.of_prepared modules
      exact ⟨m, there, m.interfaceNames_prepared settings place⟩
  case clash =>
      constructor
      · intro h m reached
        obtain ⟨place, there⟩ := reached.prepared modules
        have names := h _ there
        rw [Module.interfaceNames_prepared] at names
        exact (Module.nodup_givenNames_iff settings (distinct m reached)).mp names
      · intro h n reached
        obtain ⟨m, place, there, rfl⟩ := reached.of_prepared modules
        rw [Module.interfaceNames_prepared]
        exact (Module.nodup_givenNames_iff settings (distinct m there)).mpr (h m there)

/-- A class of queues that makes its objects by a static method, and an interface
beside it. -/
def queueTree (second : String) : Syntax.Node :=
  spelled "program" none 1 "" [
    spelled "ambient_declaration" none 1 "" [
      spelled "class_declaration" none 1 "" [
        spelled "type_identifier" (some "name") 1 "Queue" [],
        spelled "class_body" (some "body") 1 "" [
          spelled "method_signature" none 2 "" [
            spelled "static" none 2 "static" [],
            spelled "property_identifier" (some "name") 2 "create" [],
            spelled "formal_parameters" (some "parameters") 2 "" [],
            spelled "type_annotation" (some "return_type") 2 "" [
              spelled "type_identifier" none 2 "Queue" []]]]]],
    spelled "interface_declaration" none 4 "" [
      spelled "type_identifier" (some "name") 4 second [],
      spelled "interface_body" (some "body") 4 "" [
        spelled "property_signature" none 5 "" [
          spelled "property_identifier" (some "name") 5 "limit" [],
          spelled "type_annotation" (some "type") 5 "" [
            spelled "predefined_type" none 5 "string" []]]]]]

def queueModule (second : String) : Module :=
  ⟨"", [
    .interface ⟨false, "Queue", [], [],
      [.function ⟨none, true, some "create", [], [], .named "Queue"⟩]⟩,
    .interface ⟨false, second, [], [],
      [.property ⟨none, false, none, "limit", false, .named "string"⟩]⟩]⟩

theorem queueOptions_interfaceNames_nodup :
    ∃ f g, (File.read {} "queue.d.ts" "Jobs" (queueTree "QueueOptions")).outcome = .ok f ∧
      (f.prepare {}).outcome = .ok g ∧ (∀ m, f.Reaches m -> m.NoClash {}) ∧
      ∀ n, g.Reaches n -> n.interfaceNames.Nodup := by
  have value : (File.read {} "queue.d.ts" "Jobs" (queueTree "QueueOptions")).outcome.toOption.map
      Decl.file = some (.file ⟨"Jobs", Settings.opens {}, [queueModule "QueueOptions"]⟩) := by
    decide +kernel
  obtain ⟨f, read, isFile⟩ := Option.map_eq_some_iff.mp value
  obtain rfl := Decl.file.inj isFile
  have read := ok_of_toOption read
  have noClash : (queueModule "QueueOptions").NoClash {} := by
    constructor <;> decide +kernel
  have all : ∀ m, File.Reaches ⟨"Jobs", Settings.opens {}, [queueModule "QueueOptions"]⟩ m ->
      m = queueModule "QueueOptions" := by
    intro m reached
    induction reached with
    | top hm => exact List.mem_singleton.mp hm
    | nested _ hinner ih =>
        rw [ih] at hinner
        simp [queueModule] at hinner
  obtain ⟨g, prepared, -, -, -, names⟩ := prepare_interfaceNames_nodup_iff read
  have clashes : ∀ m, File.Reaches ⟨"Jobs", Settings.opens {}, [queueModule "QueueOptions"]⟩ m ->
      m.NoClash {} := by
    intro m reached
    rw [all m reached]
    exact noClash
  exact ⟨_, g, read, prepared, clashes, names.mpr clashes⟩

/-- The holder of the static method gets the name of the interface beside it. -/
theorem queueStatic_interfaceNames_clash :
    ∃ f g n, (File.read {} "queue.d.ts" "Jobs" (queueTree "QueueStatic")).outcome = .ok f ∧
      (f.prepare {}).outcome = .ok g ∧ g.Reaches n ∧
      n.interfaceNames = ["IExports", "Queue", "QueueStatic", "QueueStatic"] := by
  have value : (File.read {} "queue.d.ts" "Jobs" (queueTree "QueueStatic")).outcome.toOption.map
      (fun f => (f.prepare {}).outcome.toOption.map fun g => g.modules.map Module.interfaceNames) =
        some (some [["IExports", "Queue", "QueueStatic", "QueueStatic"]]) := by
    decide +kernel
  obtain ⟨f, read, value⟩ := Option.map_eq_some_iff.mp value
  obtain ⟨g, prepared, names⟩ := Option.map_eq_some_iff.mp value
  obtain ⟨n, only, name⟩ := List.map_eq_singleton_iff.mp names
  have reached : g.Reaches n := .top (only ▸ List.mem_singleton.mpr rfl)
  exact ⟨f, g, n, ok_of_toOption read, ok_of_toOption prepared, reached, name⟩

end Bindgen
