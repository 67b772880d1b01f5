import Mathlib.Data.List.Forall2
import Bindgen.Proofs.Passes

/-! # Where imports are found

The path of an import is the path of the module it is an entry of: the names of
the modules around it, from the outside in, behind the path of the whole. So the
modules of a tree are visited by the numbers of their entries, and what becomes
of each entry is said from the names met on the way.
-/

namespace Bindgen

/-- Going into the entries with the given numbers, which all are modules, leads from
a module to another one. The names are those of the modules on the way, with both
ends. -/
inductive Module.Leads (m : Module) : List Nat -> List String -> Module -> Prop
  | here : m.Leads [] [m.name] m
  | inside {places : List Nat} {names : List String} {around inner : Module} {k : Nat}
      (outer : m.Leads places names around) (entry : around.entries[k]? = some (.module inner)) :
      m.Leads (places ++ [k]) (names ++ [inner.name]) inner

/-- The path inside modules of the given names, of which the outermost stands at
`path`. A module without a name adds nothing to it. -/
def pathThrough (path names : List String) : List String :=
  path ++ names.filter (· != "")

/-- What becomes of an entry of the module at `path`. The entries of a module inside
it have a longer path and are not looked at here. -/
inductive Decl.ImportedAs (path : List String) : Decl -> Decl -> Prop
  | module {inner converted : Module} (name : converted.name = inner.name) :
      ImportedAs path (.module inner) (.module converted)
  | declared {v : Variable} {text : String} (declared : v.declared = true)
      (printed : (v.type.printType : Traced Event PassError String).outcome = .ok text) :
      ImportedAs path (.var v) (.imported ⟨path, v.name, text⟩)
  | imported (i : Import) :
      ImportedAs path (.imported i) (.imported ⟨path, i.binding, i.type⟩)
  | other {d : Decl} (notModule : ∀ m, d ≠ .module m) (notImport : ∀ i, d ≠ .imported i)
      (notDeclared : ∀ v, d = .var v -> v.declared = false) : ImportedAs path d d

/-- The module keeps its name and the number and order of its entries, each of which
becomes what it has to be at `path`, and no declared variable is left among them. -/
structure Module.ImportedAs (path : List String) (before after : Module) : Prop where
  name : after.name = before.name
  entries : List.Forall₂ (Decl.ImportedAs path) before.entries after.entries
  undeclared : ∀ v, .var v ∈ after.entries -> v.declared = false

/-! ## One module -/

theorem pathInside_eq_append (path : List String) (name : String) :
    pathInside path name = path ++ [name].filter (· != "") := by
  unfold pathInside
  by_cases empty : name = ""
  · simp [empty]
  · simp [empty, String.isEmpty_iff]

theorem pathInside_pathThrough (path names : List String) (name : String) :
    pathInside (pathThrough path names) name = pathThrough path (names ++ [name]) := by
  rw [pathInside_eq_append, pathThrough, pathThrough, List.filter_append, List.append_assoc]

def Module.withImports (path : List String) (m : Module) : Module :=
  { m with entries := m.entries.map (Decl.importedAt path) }

theorem Module.importedAt_eq_withImports (path : List String) (m : Module) :
    m.importedAt path = m.withImports (pathThrough path [m.name]) := by
  rw [Module.importedAt, Module.withImports, pathInside_eq_append, pathThrough]

theorem Decl.importedAt_module (path : List String) (m : Module) :
    (Decl.module m).importedAt path = .module (m.withImports (pathInside path m.name)) := by
  cases m
  rw [Decl.importedAt, Decl.allImportedAt_eq_map, Module.withImports]

theorem Decl.importedAs_importedAt (path : List String) (d : Decl) :
    Decl.ImportedAs path d (d.importedAt path) := by
  cases d with
  | module m =>
      rw [Decl.importedAt_module]
      exact .module rfl
  | imported i => exact .imported i
  | var v =>
      obtain ⟨declared, name, type⟩ := v
      cases declared with
      | true => exact .declared (v := ⟨true, name, type⟩) rfl rfl
      | false =>
          refine .other nofun nofun ?_
          rintro _ ⟨⟩
          rfl
  | _ => exact .other nofun nofun nofun

/-- A module is made of a module only. -/
theorem Decl.module_of_importedAt {path : List String} {d : Decl} {m : Module}
    (h : d.importedAt path = .module m) :
    ∃ inner, d = .module inner ∧ m = inner.withImports (pathInside path inner.name) := by
  cases d with
  | module inner =>
      rw [Decl.importedAt_module] at h
      exact ⟨inner, rfl, (Decl.module.inj h).symm⟩
  | var v =>
      obtain ⟨declared, name, type⟩ := v
      cases declared <;> cases h
  | _ => cases h

theorem Decl.declared_of_importedAt {path : List String} {d : Decl} {v : Variable}
    (h : d.importedAt path = .var v) : v.declared = false := by
  cases d with
  | var w =>
      obtain ⟨declared, name, type⟩ := w
      cases declared with
      | true => cases h
      | false =>
          cases h
          rfl
  | module m =>
      rw [Decl.importedAt_module] at h
      cases h
  | _ => cases h

theorem Module.importedAs_withImports (path : List String) (m : Module) :
    m.ImportedAs path (m.withImports path) where
  name := rfl
  entries := by
    rw [Module.withImports, List.forall₂_map_right_iff, List.forall₂_same]
    exact fun d _ => d.importedAs_importedAt path
  undeclared v hv := by
    obtain ⟨d, -, made⟩ := List.mem_map.mp hv
    exact Decl.declared_of_importedAt made

/-! ## Modules in modules -/

/-- What is visited before is visited after, with the path of the names on the way. -/
theorem Module.Leads.importedAt {m n : Module} {places : List Nat} {names : List String}
    (h : m.Leads places names n) (path : List String) :
    (m.importedAt path).Leads places names (n.withImports (pathThrough path names)) := by
  induction h with
  | here =>
      rw [Module.importedAt_eq_withImports]
      exact .here
  | @inside places names around inner k _ entry ih =>
      have converted : (around.withImports (pathThrough path names)).entries[k]? =
          some (.module (inner.withImports (pathThrough path (names ++ [inner.name])))) := by
        rw [Module.withImports, List.getElem?_map, entry, Option.map_some, Decl.importedAt_module,
          pathInside_pathThrough]
      have led := ih.inside converted
      exact led

theorem Module.Leads.of_importedAt {m converted : Module} {path : List String} {places : List Nat}
    {names : List String} (h : (m.importedAt path).Leads places names converted) :
    ∃ n, m.Leads places names n ∧ converted = n.withImports (pathThrough path names) := by
  induction h with
  | here => exact ⟨m, .here, m.importedAt_eq_withImports path⟩
  | inside _ entry ih =>
      obtain ⟨around, outer, rfl⟩ := ih
      rw [Module.withImports, List.getElem?_map, Option.map_eq_some_iff] at entry
      obtain ⟨d, before, made⟩ := entry
      obtain ⟨inner, rfl, rfl⟩ := Decl.module_of_importedAt made
      refine ⟨inner, outer.inside before, ?_⟩
      rw [pathInside_pathThrough]
      rfl

/-- Converting the imports of a module that stands at `path` never fails. The same
modules are found at the same places and under the same names as before, and in each
of them every declared variable and every import has the path that leads there. -/
theorem convertImports_at_paths (path : List String) (m : Module) :
    ∃ n, (m.convertImports path).outcome = .ok n ∧
      (∀ places names before, m.Leads places names before ->
        ∃ after, n.Leads places names after ∧
          before.ImportedAs (pathThrough path names) after) ∧
      ∀ places names after, n.Leads places names after ->
        ∃ before, m.Leads places names before ∧
          before.ImportedAs (pathThrough path names) after := by
  refine ⟨m.importedAt path, m.convertImports_outcome path, ?before, ?after⟩
  case before =>
      intro places names before reached
      exact ⟨_, reached.importedAt path, before.importedAs_withImports _⟩
  case after =>
      intro places names after reached
      obtain ⟨before, led, rfl⟩ := reached.of_importedAt
      exact ⟨before, led, before.importedAs_withImports _⟩

/-- A module without a name that has a declared variable, an import from elsewhere and
a variable of its own. -/
def looks : Module :=
  ⟨"", [
    .var ⟨true, "sizes", .array (.named "float")⟩,
    .imported ⟨["Elsewhere"], "theme", "Theme"⟩,
    .var ⟨false, "local", .named "string"⟩]⟩

def toolkit : Module :=
  ⟨"Toolkit", [.var ⟨true, "version", .named "string"⟩, .module looks]⟩

theorem toolkit_imports_at_paths :
    ∃ n inner, (toolkit.convertImports ["Lib"]).outcome = .ok n ∧
      n.Leads [1] ["Toolkit", ""] inner ∧
      inner.entries = [
        .imported ⟨["Lib", "Toolkit"], "sizes", "ResizeArray<float>"⟩,
        .imported ⟨["Lib", "Toolkit"], "theme", "Theme"⟩,
        .var ⟨false, "local", .named "string"⟩] := by
  obtain ⟨n, outcome, modules, -⟩ := convertImports_at_paths ["Lib"] toolkit
  have entry : toolkit.entries[1]? = some (.module looks) := rfl
  have entered := Module.Leads.here.inside entry
  obtain ⟨inner, reached, imported⟩ := modules [1] ["Toolkit", ""] looks entered
  refine ⟨n, inner, outcome, reached, ?_⟩
  obtain ⟨sizes, _, asImport, following, entries⟩ :=
    List.forall₂_cons_left_iff.mp imported.entries
  obtain ⟨theme, _, kept, last, rfl⟩ := List.forall₂_cons_left_iff.mp following
  obtain ⟨own, _, same, nothing, rfl⟩ := List.forall₂_cons_left_iff.mp last
  obtain rfl := List.forall₂_nil_left_iff.mp nothing
  rw [entries]
  cases asImport with
  | other _ _ notDeclared => cases notDeclared _ rfl
  | declared _ printed =>
      cases printed
      cases kept with
      | other _ notImport => exact absurd rfl (notImport _)
      | imported =>
          cases same with
          | declared declared => cases declared
          | other => rfl

end Bindgen
