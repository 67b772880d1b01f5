import Bindgen.Generate
import Bindgen.Proofs.Merge.Contents
import Bindgen.Proofs.Reading.Declarations

/-! # What becomes of a declaration

A declaration stands at the path of the names of the modules around it. Every
enum and every alias is an entry of its own in the module at its path. A class is
read as an interface, and merging sees no difference between the two: those of
one name at one path become one entry.
-/

namespace Bindgen

open Syntax

/-! ## Entries at a path -/

/-- The entries of all modules that are reached by following a path of names. -/
def entriesAt : List String -> List Decl -> List Decl
  | [], ds => ds
  | name :: rest, ds => entriesAt rest ((modulesNamed name ds).flatMap Module.entries)

def Module.below? : List String -> Module -> Option Module
  | [], m => some m
  | name :: rest, m => (modulesNamed name m.entries).head?.bind (Module.below? rest)

@[simp] theorem entriesAt_nil (names : List String) : entriesAt names [] = [] := by
  induction names with
  | nil => rfl
  | cons name rest ih => exact ih

theorem entriesAt_append (names : List String) (ds es : List Decl) :
    entriesAt names (ds ++ es) = entriesAt names ds ++ entriesAt names es := by
  induction names generalizing ds es with
  | nil => rfl
  | cons name rest ih =>
      have modules : modulesNamed name (ds ++ es) = modulesNamed name ds ++ modulesNamed name es := by
        simp [modulesNamed, modulesOf]
      simp only [entriesAt, modules, List.flatMap_append, ih]

/-- Merging keeps a module apart from the others, so below it are merged entries. -/
theorem Module.below?_of_merged {m : Module} {ds : List Decl} (h : m.entries = mergeEntries ds)
    (names : List String) :
    (m.below? names = none ∧ entriesAt names ds = []) ∨
      ∃ n, m.below? names = some n ∧ n.entries = mergeEntries (entriesAt names ds) := by
  induction names generalizing m ds with
  | nil => exact .inr ⟨m, rfl, h⟩
  | cons name rest ih =>
      have merged := modulesNamed_mergeModules name ds
      rw [← modulesNamed_mergeEntries, ← h] at merged
      rw [Module.below?, entriesAt]
      cases found : modulesNamed name ds with
      | nil =>
          rw [found] at merged
          exact .inl ⟨by rw [merged]; rfl, entriesAt_nil rest⟩
      | cons first others =>
          rw [found] at merged
          rw [merged]
          exact ih rfl

/-! ## Statements at a path -/

/-- The statements in a statement that stand at a path and are no modules, each
with its modifiers. -/
def statementsAt (names : List String) (c : Cursor) : List (Cursor × Modifiers) :=
  if isTrivia c.unwrapStatement.1 then []
  else if c.unwrapStatement.1.kind == .moduleDeclaration then
    let opened := moduleNames c.unwrapStatement.1
    if opened.isPrefixOf names then
      (moduleStatements c.unwrapStatement.1).attach.flatMap fun ⟨s, _h⟩ =>
        statementsAt (names.drop opened.length) s
    else []
  else if names.isEmpty then [c.unwrapStatement]
  else []
termination_by c.size
decreasing_by
  have := size_lt_of_mem_moduleStatements _h
  have := c.size_unwrapStatement_le
  omega

def declaredAt (names : List String) (tree : Node) : List (Cursor × Modifiers) :=
  (Cursor.root tree).named.flatMap (statementsAt names)

def ownEntriesAt (names : List String) (ds : List Decl) : List Decl :=
  (entriesAt names ds).filter fun d => d.module?.isNone

theorem moduleNames_ne_nil (c : Cursor) : moduleNames c ≠ [] := by
  unfold moduleNames
  split
  · simp
  · dsimp only
    split
    · simpa [Text.dotted] using Text.fields_ne_nil _ _
    · simp

theorem ownEntriesAt_module (names : List String) (m : Module) :
    ownEntriesAt names [.module m] =
      match names with
      | [] => []
      | name :: rest => if m.name = name then ownEntriesAt rest m.entries else [] := by
  cases names with
  | nil => rfl
  | cons name rest =>
      by_cases same : m.name = name
      · simp [ownEntriesAt, entriesAt, modulesNamed, modulesOf, Decl.module?, same]
      · simp [ownEntriesAt, entriesAt, modulesNamed, modulesOf, Decl.module?, same]

theorem ownEntriesAt_of_not_module (names : List String) {d : Decl} (h : d.module? = none) :
    ownEntriesAt names [d] = if names.isEmpty then [d] else [] := by
  cases names with
  | nil => simp [ownEntriesAt, entriesAt, h]
  | cons name rest => simp [ownEntriesAt, entriesAt, modulesNamed, modulesOf, h]

/-- The names of nested modules are the beginning of the path of what is in them. -/
theorem ownEntriesAt_nestModules (names : List String) (entries : List Decl)
    {opened : List String} (h : opened ≠ []) :
    ownEntriesAt names [nestModules entries opened] =
      if opened.isPrefixOf names then ownEntriesAt (names.drop opened.length) entries else [] := by
  induction opened generalizing names with
  | nil => exact absurd rfl h
  | cons name inner ih =>
      cases inner with
      | nil =>
          rw [nestModules, ownEntriesAt_module]
          cases names with
          | nil => rfl
          | cons first rest => simp [List.isPrefixOf]
      | cons next inner =>
          have nested : nestModules entries (name :: next :: inner) =
              .module ⟨name, [nestModules entries (next :: inner)]⟩ := rfl
          rw [nested, ownEntriesAt_module]
          cases names with
          | nil => rfl
          | cons first rest =>
              dsimp only
              rw [ih rest nofun]
              by_cases same : name = first
              · simp [List.isPrefixOf, same]
              · simp [List.isPrefixOf, same]

/-! ## Readings of statements -/

def declaresInterface (c : Cursor) : Bool :=
  c.kind == .interfaceDeclaration || c.kind == .classDeclaration

/-- Modules come from modules only, and interfaces from interfaces and classes. -/
structure PlainForm (c : Cursor) (d : Decl) : Prop where
  module? : d.module? = none
  interface? : d.interface?.isSome = declaresInterface c

section

variable (path : String) {c : Cursor}

theorem yields_plainForm_alias (kind : declaresInterface c = false) :
    (readAlias path c).Yields (PlainForm c) := by
  unfold readAlias
  split
  case h_1 => exact Traced.ends_fail trivial
  case h_2 =>
      refine Traced.yields_bind fun type => ?_
      split
      · exact Traced.ends_done ⟨rfl, kind.symm⟩
      · exact Traced.ends_done ⟨rfl, kind.symm⟩

theorem yields_plainForm_variable (kind : declaresInterface c = false) (modifiers : Modifiers) :
    (readVariable path c modifiers).Yields (PlainForm c) := by
  unfold readVariable
  split
  case h_1 => exact Traced.yields_bind fun _ => Traced.ends_done ⟨rfl, kind.symm⟩
  case h_2 =>
      split
      · exact Traced.yields_bind fun _ => Traced.yields_bind fun _ =>
          Traced.ends_done ⟨rfl, kind.symm⟩
      · exact Traced.yields_bind fun _ => Traced.ends_done ⟨rfl, kind.symm⟩

theorem yields_plainForm (c : Cursor) (modifiers : Modifiers) :
    (readPlainStatement path c modifiers).Yields (PlainForm c) := by
  unfold readPlainStatement
  split
  case h_3 kind => exact Traced.ends_done ⟨rfl, by rw [declaresInterface, kind]; rfl⟩
  case h_4 kind => exact yields_plainForm_alias path (by rw [declaresInterface, kind]; rfl)
  case h_5 kind => exact yields_plainForm_variable path (by rw [declaresInterface, kind]; rfl) modifiers
  case h_11 =>
      have kind : declaresInterface c = false := by
        simp only [declaresInterface, Bool.or_eq_false_iff, beq_eq_false_iff_ne]
        exact ⟨by assumption, by assumption⟩
      exact Traced.yields_bind fun _ => Traced.ends_done ⟨rfl, kind.symm⟩
  all_goals
    exact Traced.yields_bind fun _ => Traced.ends_done
      ⟨rfl, by rw [declaresInterface, ‹c.kind = _›]; rfl⟩

end

def plainReading (path : String) (s : Cursor × Modifiers) : Except ReadError Decl :=
  (readPlainStatement path s.1 s.2).outcome

theorem plainForm {path : String} {s : Cursor × Modifiers} {d : Decl}
    (h : plainReading path s = .ok d) : PlainForm s.1 d :=
  (yields_plainForm path s.1 s.2).ok d h

theorem ownEntriesAt_append (names : List String) (ds es : List Decl) :
    ownEntriesAt names (ds ++ es) = ownEntriesAt names ds ++ ownEntriesAt names es := by
  rw [ownEntriesAt, entriesAt_append, List.filter_append, ownEntriesAt, ownEntriesAt]

theorem map_plainReading_flatMap {path : String} {names : List String} {cs : List Cursor}
    {ds? : List (Option Decl)} (read : cs.map (fun c => (readStatement path c).outcome) = ds?.map .ok)
    (each : ∀ c ∈ cs, ∀ d?, (readStatement path c).outcome = .ok d? ->
      (statementsAt names c).map (plainReading path) = (ownEntriesAt names d?.toList).map .ok) :
    (cs.flatMap (statementsAt names)).map (plainReading path) =
      (ownEntriesAt names (ds?.filterMap id)).map .ok := by
  induction cs generalizing ds? with
  | nil =>
      cases ds? with
      | nil => simp [ownEntriesAt]
      | cons d? ds? => cases read
  | cons c cs ih =>
      cases ds? with
      | nil => cases read
      | cons d? ds? =>
          obtain ⟨first, rest⟩ := List.cons.inj read
          obtain ⟨one, others⟩ := List.forall_mem_cons.mp each
          have split : (d? :: ds?).filterMap id = d?.toList ++ ds?.filterMap id := by
            cases d? <;> rfl
          rw [split, ownEntriesAt_append, List.map_append, List.flatMap_cons, List.map_append,
            one d? first, ih rest others]

theorem statementsAt_module {c : Cursor} (notTrivia : isTrivia c.unwrapStatement.1 = false)
    (kind : c.unwrapStatement.1.kind = .moduleDeclaration) (names : List String) :
    statementsAt names c =
      if (moduleNames c.unwrapStatement.1).isPrefixOf names then
        (moduleStatements c.unwrapStatement.1).flatMap
          (statementsAt (names.drop (moduleNames c.unwrapStatement.1).length))
      else [] := by
  rw [statementsAt]
  simp [notTrivia, kind]

/-- What is read from a statement has what is read from the statements in it, at
their paths. -/
theorem map_plainReading_statementsAt (path : String) (c : Cursor) (names : List String)
    {d? : Option Decl} (h : (readStatement path c).outcome = .ok d?) :
    (statementsAt names c).map (plainReading path) = (ownEntriesAt names d?.toList).map .ok := by
  rw [readStatement] at h
  cases trivia : isTrivia c.unwrapStatement.1 with
  | true =>
      simp only [trivia, if_true] at h
      cases h
      rw [statementsAt, if_pos trivia]
      simp [ownEntriesAt]
  | false =>
      simp only [trivia, Bool.false_eq_true, if_false] at h
      by_cases kind : c.unwrapStatement.1.kind = .moduleDeclaration
      · rw [if_pos (by simpa using kind)] at h
        obtain ⟨d, module, ⟨⟩⟩ := Traced.ok_of_bind h
        rw [readModule, Traced.traverseMem_eq_traverse] at module
        obtain ⟨ds?, read, ⟨⟩⟩ := Traced.ok_of_bind module
        have below := map_plainReading_flatMap
          (Traced.map_outcome_of_traverse read)
          fun s hs d? => map_plainReading_statementsAt path s
            (names.drop (moduleNames c.unwrapStatement.1).length)
        rw [statementsAt_module trivia kind, Option.toList_some,
          ownEntriesAt_nestModules _ _ (moduleNames_ne_nil _)]
        split
        · exact below
        · rfl
      · rw [if_neg (by simpa using kind)] at h
        obtain ⟨d, plain, ⟨⟩⟩ := Traced.ok_of_bind h
        have form := plainForm plain
        rw [statementsAt, if_neg (by simp [trivia]), if_neg (by simpa using kind), Option.toList_some,
          ownEntriesAt_of_not_module _ form.module?]
        split
        · exact congrArg (fun reading => [reading]) plain
        · rfl
termination_by c.size
decreasing_by
  have := size_lt_of_mem_moduleStatements hs
  have := c.size_unwrapStatement_le
  omega

theorem map_plainReading_declaredAt {path : String} {tree : Node} {ds : List Decl}
    (h : (readDeclarations path tree).outcome = .ok ds) (names : List String) :
    (declaredAt names tree).map (plainReading path) = (ownEntriesAt names ds).map .ok := by
  obtain ⟨ds?, read, ⟨⟩⟩ := Traced.ok_of_bind h
  exact map_plainReading_flatMap (Traced.map_outcome_of_traverse read)
    fun c _ d? => map_plainReading_statementsAt path c names

/-! ## Merged entries -/

/-- Interfaces of different names are not touched. -/
theorem mergeInterfaces_of_nodup {ds : List Decl}
    (h : ((interfacesOf ds).map Interface.name).Nodup) : mergeInterfaces ds = ds := by
  rw [map_name_interfacesOf] at h
  rw [mergeInterfaces_eq_gather]
  apply Folding.gather_eq_self
  refine (List.pairwise_filterMap.mp h).imp ?_
  intro a b apart
  cases key : interfaceFolding.key a with
  | none => simp [Folding.meets, key]
  | some name =>
      have differs : interfaceFolding.key b ≠ some name := fun same => apart name key name same rfl
      simp [Folding.meets, key, differs]

theorem interfacesOf_mergeEntries_eq_iff (ds : List Decl) :
    interfacesOf (mergeEntries ds) = interfacesOf ds ↔
      ((interfacesOf ds).map Interface.name).Nodup := by
  constructor
  · intro same
    rw [← same]
    exact nodup_interfaceNames_mergeEntries ds
  · intro nodup
    rw [← interfacesOf_mergeModules] at nodup
    rw [mergeEntries, mergeInterfaces_of_nodup nodup, interfacesOf_mergeModules]

/-- One interface for each name, with what its declarations hold. -/
structure Module.Folds (m : Module) (parts : List Interface) : Prop where
  names : (interfacesOf m.entries).map Interface.name = (parts.map Interface.name).eraseDups
  collects : ∀ i ∈ interfacesOf m.entries, i.Collects (parts.filter fun part => part.name = i.name)
  eq_iff : interfacesOf m.entries = parts ↔ (parts.map Interface.name).Nodup

theorem Module.folds_of_merged {m : Module} {ds : List Decl} (h : m.entries = mergeEntries ds) :
    m.Folds (interfacesOf ds) where
  names := by rw [h, interfaceNames_mergeEntries]
  collects i hi := by
    rw [h] at hi
    have parts := interface_collects hi
    rw [interfacesNamed_mergeModules] at parts
    exact parts
  eq_iff := by rw [h, interfacesOf_mergeEntries_eq_iff]

theorem filter_isSome_interface? (ds : List Decl) :
    (ds.filter fun d => d.interface?.isSome) = (interfacesOf ds).map .interface := by
  rw [interfacesOf, List.map_filterMap, ← List.filterMap_eq_filter]
  congr 1
  funext d
  cases d <;> rfl

theorem filter_isNone_ownEntriesAt (names : List String) (ds : List Decl) :
    ((ownEntriesAt names ds).filter fun d => d.interface?.isNone) =
      (entriesAt names ds).filter Decl.isPlain := by
  rw [ownEntriesAt, List.filter_filter]
  congr 1
  funext d
  exact Bool.and_comm _ _

theorem filter_isSome_ownEntriesAt (names : List String) (ds : List Decl) :
    ((ownEntriesAt names ds).filter fun d => d.interface?.isSome) =
      (interfacesOf (entriesAt names ds)).map .interface := by
  rw [← filter_isSome_interface?, ownEntriesAt, List.filter_filter]
  congr 1
  funext d
  cases d <;> rfl

/-- Whatever tree is read, a module holds what is declared at its path. A statement
that declares no interface is one entry, in the order of the statements. Interfaces
and classes are folded by their names, and each is an entry of its own exactly if
they all have different names. -/
theorem read_folds_declared {settings : Settings} {path rootName : String} {tree : Node} {f : File}
    (read : (File.read settings path rootName tree).outcome = .ok f) :
    ∃ global, f.modules = [global] ∧ ∀ names,
      (global.below? names = none -> declaredAt names tree = []) ∧
      ∀ m, global.below? names = some m ->
        ((declaredAt names tree).filter fun s => !declaresInterface s.1).map (plainReading path) =
            (m.entries.filter Decl.isPlain).map .ok ∧
          ∃ parts, m.Folds parts ∧
            ((declaredAt names tree).filter fun s => declaresInterface s.1).map (plainReading path) =
              parts.map fun part => .ok (.interface part) := by
  obtain ⟨ds, declarations, ⟨⟩⟩ := Traced.ok_of_bind read
  refine ⟨⟨"", mergeEntries ds⟩, File.modules_merge_single _ _ _, fun names => ?_⟩
  have readings := map_plainReading_declaredAt declarations names
  rcases Module.below?_of_merged (m := ⟨"", mergeEntries ds⟩) rfl names with
    ⟨missing, empty⟩ | ⟨n, found, entries⟩
  · refine ⟨fun _ => ?_, fun m found => ?_⟩
    · simpa [ownEntriesAt, empty] using readings
    · rw [missing] at found
      cases found
  · refine ⟨fun missing => ?_, fun m same => ?_⟩
    · rw [missing] at found
      cases found
    · obtain rfl : n = m := by
        rw [found] at same
        exact Option.some.inj same
      refine ⟨?_, interfacesOf (entriesAt names ds), n.folds_of_merged entries, ?_⟩
      · rw [entries, filter_isPlain_mergeEntries, ← filter_isNone_ownEntriesAt]
        refine map_filter_of_agree readings fun s _ d reading => ?_
        rw [← (plainForm reading).interface?]
        cases d.interface? <;> rfl
      · have folded := map_filter_of_agree readings
          (p := fun s => declaresInterface s.1) (q := fun d => d.interface?.isSome)
          fun s _ d reading => (plainForm reading).interface?
        rw [filter_isSome_ownEntriesAt, List.map_map] at folded
        exact folded

def classTree (name field : String) : Node :=
  spelled "class_declaration" none 1 "" [
    spelled "type_identifier" (some "name") 1 name [],
    spelled "class_body" (some "body") 1 "" [
      spelled "public_field_definition" none 1 "" [
        spelled "property_identifier" (some "name") 1 field [],
        spelled "type_annotation" (some "type") 1 "" [
          spelled "predefined_type" none 1 "number" []]]]]

/-- Two blocks of one module, the first with a dotted name. Each declares a class
and the same enum. -/
def formsTree (second : String) : Node :=
  let mode := spelled "enum_declaration" none 1 "" [spelled "identifier" (some "name") 1 "Mode" []]
  spelled "program" none 1 "" [
    spelled "internal_module" none 1 "" [
      spelled "nested_identifier" (some "name") 1 "Ui.Forms" [],
      spelled "statement_block" (some "body") 1 "" [classTree "Box" "width", mode]],
    spelled "internal_module" none 2 "" [
      spelled "identifier" (some "name") 2 "Ui" [],
      spelled "statement_block" (some "body") 2 "" [
        spelled "internal_module" none 3 "" [
          spelled "identifier" (some "name") 3 "Forms" [],
          spelled "statement_block" (some "body") 3 "" [classTree second "height", mode]]]]]

def formInterface (name : String) (fields : List String) : Interface :=
  ⟨false, name, [], [], fields.map fun field =>
    .property ⟨none, false, none, field, false, .named "float"⟩⟩

/-- A file with the entries in the module at the path of the two blocks. -/
def formsFile (entries : List Decl) : File :=
  ⟨"Forms", Settings.opens {}, [⟨"", [.module ⟨"Ui", [.module ⟨"Forms", entries⟩]⟩]⟩]⟩

theorem formsTree_folds_declared :
    ∃ f global m parts,
      (File.read {} "forms.d.ts" "Forms" (formsTree "Label")).outcome = .ok f ∧
        f.modules = [global] ∧ global.below? ["Ui", "Forms"] = some m ∧ m.Folds parts ∧
        parts.length = 2 ∧ (interfacesOf m.entries).length = 2 ∧
        (m.entries.filter Decl.isPlain).length = 2 := by
  have value : (File.read {} "forms.d.ts" "Forms" (formsTree "Label")).outcome.toOption.map
      Decl.file = some (.file (formsFile [
        .interface (formInterface "Box" ["width"]), .enum ⟨"Mode", []⟩,
        .interface (formInterface "Label" ["height"]), .enum ⟨"Mode", []⟩])) := by
    decide +kernel
  obtain ⟨f, read, isFile⟩ := Option.map_eq_some_iff.mp value
  obtain rfl := Decl.file.inj isFile
  obtain ⟨global, only, holds⟩ := read_folds_declared (ok_of_toOption read)
  obtain rfl := (List.cons.inj only).1
  obtain ⟨-, parts, folds, readings⟩ := (holds ["Ui", "Forms"]).2 _ rfl
  have length : parts.length = 2 := by
    have same := congrArg List.length readings
    rw [List.length_map, List.length_map] at same
    rw [← same]
    decide +kernel
  exact ⟨_, _, _, parts, ok_of_toOption read, rfl, rfl, folds, length, rfl, rfl⟩

/-- Two classes of one name are one interface with the members of both. -/
theorem formsTree_classes_folded :
    ∃ f global m, (File.read {} "forms.d.ts" "Forms" (formsTree "Box")).outcome = .ok f ∧
      f.modules = [global] ∧ global.below? ["Ui", "Forms"] = some m ∧
      ((declaredAt ["Ui", "Forms"] (formsTree "Box")).filter fun s =>
        s.1.kind == .classDeclaration).map (fun s => className s.1) = ["Box", "Box"] ∧
      interfacesOf m.entries = [formInterface "Box" ["width", "height"]] := by
  have value : (File.read {} "forms.d.ts" "Forms" (formsTree "Box")).outcome.toOption.map
      Decl.file = some (.file (formsFile [
        .interface (formInterface "Box" ["width", "height"]), .enum ⟨"Mode", []⟩,
        .enum ⟨"Mode", []⟩])) := by
    decide +kernel
  obtain ⟨f, read, isFile⟩ := Option.map_eq_some_iff.mp value
  obtain rfl := Decl.file.inj isFile
  exact ⟨_, _, _, ok_of_toOption read, rfl, rfl, by decide +kernel, rfl⟩

end Bindgen
