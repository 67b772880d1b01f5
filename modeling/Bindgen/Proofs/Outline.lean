import Bindgen.Proofs.Heads

/-! # The outline of a prepared file

The outline of a declaration is its kind and its name, and for a module the
outlines of its entries. The passes together change outlines in a way that can
be read off the original: `prepare_outline` says that the entries of every
module come out in their order, none lost and none added but the static holders
and the exports interface.
-/

namespace Bindgen

/-- What a declaration is and what it is called. Members and types, which are no
entries of a module, are all alike. -/
inductive Outline where
  | interface (isStatic : Bool) (name : String)
  | enum (value : Enum)
  | typeAlias (name : String)
  | var (name : String)
  | function (name : Option String)
  | imported (binding : String)
  | module (name : String) (entries : List Outline)
  | todo
  | absent
  | other

mutual

def Decl.outline : Decl -> Outline
  | .interface i => .interface i.isStatic i.name
  | .enum e => .enum e
  | .typeAlias a => .typeAlias a.name
  | .var v => .var v.name
  | .function s => .function s.name
  | .imported i => .imported i.binding
  | .module ⟨name, entries⟩ => .module name (Decl.outlines entries)
  | .todo => .todo
  | .absent => .absent
  | _ => .other

def Decl.outlines : List Decl -> List Outline
  | [] => []
  | d :: ds => d.outline :: Decl.outlines ds

end

def Module.outline (m : Module) : Outline :=
  .module m.name (Decl.outlines m.entries)

/-! ## The outlines to expect -/

/-- The name of a function after all passes. One that takes a string first, and
has no template, gets the string into its name. -/
def Signature.preparedName (s : Signature) : Option String :=
  match s.emit, s.name, s.params with
  | none, some name, ⟨_, _, _, .literal text⟩ :: _ =>
    some (Word.escape (Word.unescape (Word.escape name) ++ "_" ++ text))
  | _, name, _ => name.map Word.escape

def Decl.isValue (settings : Settings) : Decl -> Bool
  | .function _ => true
  | .var v => !(settings.convertImports && v.declared)
  | .interface i => i.isStatic || i.hasStaticMembers
  | _ => false

def exportsOutline (settings : Settings) (entries : List Decl) : List Outline :=
  if entries.any (Decl.isValue settings) then
    [.interface false (Word.escape settings.exportsName)]
  else []

mutual

/-- What comes of an entry of a module. -/
def Decl.preparedOutline (settings : Settings) : Decl -> List Outline
  | .interface i =>
    if !i.isStatic && i.hasStaticMembers then
      [.interface false (Word.escape i.name),
        .interface true (Word.escape (i.name ++ settings.staticSuffix))]
    else [.interface i.isStatic (Word.escape i.name)]
  | .enum e => [.enum e]
  | .typeAlias a => [.typeAlias (Word.escape a.name)]
  | .var v =>
    if settings.convertImports && v.declared then [.imported (Word.escape v.name)]
    else [.var (Word.escape v.name)]
  | .function s => [.function s.preparedName]
  | .imported i => [.imported (Word.escape i.binding)]
  | .module ⟨name, entries⟩ =>
    [.module (Word.escape name)
      (exportsOutline settings entries ++ Decl.preparedOutlines settings entries)]
  | .todo => [.todo]
  | .absent => [.absent]
  | _ => [.other]

def Decl.preparedOutlines (settings : Settings) : List Decl -> List Outline
  | [] => []
  | d :: ds => d.preparedOutline settings ++ Decl.preparedOutlines settings ds

end

def Module.preparedOutline (settings : Settings) (m : Module) : Outline :=
  .module (Word.escape m.name)
    (exportsOutline settings m.entries ++ Decl.preparedOutlines settings m.entries)

/-! ## Outlines and heads -/

def Head.outline : Head -> Outline
  | .interface isStatic _ name => .interface isStatic name
  | .enum e => .enum e
  | .typeAlias name => .typeAlias name
  | .var _ name => .var name
  | .function _ _ name _ => .function name
  | .imported binding => .imported binding
  | .module name => .module name []
  | .todo => .todo
  | .absent => .absent
  | _ => .other

def Head.isModule : Head -> Bool
  | .module _ => true
  | _ => false

theorem Decl.outline_module (m : Module) : (Decl.module m).outline = m.outline := by
  cases m
  rw [Decl.outline, Module.outline]

theorem Decl.outline_eq_head {d : Decl} (h : d.head.isModule = false) :
    d.outline = d.head.outline := by
  cases d with
  | module m => cases h
  | _ => rfl

theorem Decl.outlines_eq_map (ds : List Decl) : Decl.outlines ds = ds.map Decl.outline := by
  induction ds with
  | nil => rfl
  | cons d ds ih => rw [Decl.outlines, ih, List.map_cons]

theorem map_outline_eq_map_head {ds : List Decl} {hs : List Head} (heads : ds.map Decl.head = hs)
    (plain : ∀ h ∈ hs, h.isModule = false) : ds.map Decl.outline = hs.map Head.outline := by
  subst heads
  rw [List.map_map]
  apply List.map_congr_left
  intro d hd
  exact Decl.outline_eq_head (plain d.head (List.mem_map_of_mem hd))

/-! ## Entries, one by one -/

def Decl.settled (settings : Settings) (path : List String) (d : Decl) : Decl :=
  let imports := if settings.convertImports then d.importedAt path else d
  (((imports.rewrite .resolveSelf).rewrite (.collapseArrays nodeArrayMarker)).rewrite
    .renameDates).rewrite (.splitStatics settings.staticSuffix)

/-- The entry after the passes that follow the collecting of exports. -/
def Decl.spelled (settings : Settings) (d : Decl) : Decl :=
  ((((d.rewrite .escapeNames).rewrite .quoteFunctions).rewrite .quoteTypes).rewrite
    .specializeOverloads).rewrite (.capUnions settings.maxUnionArity)

/-- What comes of an entry of the module at `path`. -/
def Decl.prepared (settings : Settings) (path : List String) (d : Decl) : List Decl :=
  (Decl.splitStatic settings.staticSuffix (d.settled settings path)).map fun e =>
    (e.rewrite (.addExports settings.exportsName settings.staticSuffix)).spelled settings

section

variable (settings : Settings) (path : List String)

def Head.settled (h : Head) : Head :=
  if settings.convertImports then h.toImport else h

theorem Decl.head_settled (d : Decl) :
    (d.settled settings path).head = d.head.settled settings := by
  have imports : (if settings.convertImports then d.importedAt path else d).head =
      d.head.settled settings := by
    unfold Head.settled
    split
    · exact Decl.head_importedAt path d
    · rfl
  simp only [Decl.settled]
  rw [Decl.head_rewrite (Rewriting.splitStatics_keepsHeads _),
    Decl.head_rewrite Rewriting.renameDates_keepsHeads,
    Decl.head_rewrite (Rewriting.collapseArrays_keepsHeads _),
    Decl.head_rewrite Rewriting.resolveSelf_keepsHeads, imports]
  rfl

theorem Decl.head_spelled (d : Decl) : (d.spelled settings).head = d.head.escape.specialize := by
  rw [Decl.spelled, Decl.head_rewrite (Rewriting.capUnions_keepsHeads _),
    Decl.head_rewrite Rewriting.specializeOverloads_actsOn,
    Decl.head_rewrite Rewriting.quoteTypes_keepsHeads,
    Decl.head_rewrite Rewriting.quoteFunctions_keepsHeads,
    Decl.head_rewrite Rewriting.escapeNames_actsOn]
  rfl

theorem Decl.map_head_prepared (d : Decl) :
    (d.prepared settings path).map Decl.head =
      ((d.head.settled settings).split settings.staticSuffix).map fun h =>
        h.escape.specialize := by
  have finished : ∀ e : Decl, ((e.rewrite (.addExports settings.exportsName
      settings.staticSuffix)).spelled settings).head = e.head.escape.specialize := by
    intro e
    rw [Decl.head_spelled, Decl.head_rewrite (Rewriting.addExports_keepsHeads _ _)]
    rfl
  rw [Decl.prepared, List.map_map, ← Decl.head_settled settings path,
    ← Decl.map_head_splitStatic, List.map_map]
  apply List.map_congr_left
  intro e _
  exact finished e

/-- Splitting and settling decide what a module exports. -/
theorem Decl.any_isExported (d : Decl) :
    ((d.head.settled settings).split settings.staticSuffix).any Head.isExported =
      d.isValue settings := by
  cases d with
  | interface i =>
      cases isStatic : i.isStatic <;> cases hasStatic : i.hasStaticMembers <;>
        simp [Decl.head, Head.settled, Head.toImport, Head.split, Head.isExported, Decl.isValue,
          isStatic, hasStatic]
  | var v =>
      cases declared : v.declared <;> cases convert : settings.convertImports <;>
        simp [Decl.head, Head.settled, Head.toImport, Head.split, Head.isExported, Decl.isValue,
          declared, convert]
  | _ =>
      unfold Head.settled
      split <;> rfl

theorem Signature.outline_head (s : Signature) :
    (Decl.function s).head.escape.specialize.outline = .function s.preparedName := by
  obtain ⟨emit, isStatic, name, typeParams, params, result⟩ := s
  cases emit with
  | some template => cases name <;> rfl
  | none =>
      cases name with
      | none => rfl
      | some name =>
          cases params with
          | nil => rfl
          | cons p params =>
              obtain ⟨paramName, optional, isRest, type⟩ := p
              cases type <;> rfl

theorem Head.isModule_specialize_escape (h : Head) :
    h.escape.specialize.isModule = h.isModule := by
  have specialized : ∀ h : Head, h.specialize.isModule = h.isModule := by
    intro h
    unfold Head.specialize
    split <;> rfl
  rw [specialized]
  cases h <;> rfl

theorem Head.isModule_of_mem_split {suffix : String} {h k : Head} (hk : k ∈ h.split suffix) :
    k.isModule = h.isModule := by
  unfold Head.split at hk
  split at hk
  · rcases List.mem_cons.mp hk with rfl | hk
    · rfl
    · rw [List.mem_singleton.mp hk]
      rfl
  · rw [List.mem_singleton.mp hk]

theorem Decl.isModule_settled (d : Decl) :
    (d.head.settled settings).isModule = d.module?.isSome := by
  unfold Head.settled
  split
  · cases d with
    | var v =>
        obtain ⟨declared, name, type⟩ := v
        cases declared <;> rfl
    | _ => rfl
  · cases d <;> rfl

/-- An entry that is no module: its outlines can be read off its head. -/
theorem Decl.map_outline_prepared_of_plain {d : Decl} (plain : d.module? = none) :
    (d.prepared settings path).map Decl.outline = d.preparedOutline settings := by
  have heads := d.map_head_prepared settings path
  rw [map_outline_eq_map_head heads]
  · cases d with
    | interface i =>
        cases isStatic : i.isStatic <;> cases hasStatic : i.hasStaticMembers <;>
          simp [Decl.head, Head.settled, Head.toImport, Head.split, Head.escape, Head.specialize,
            Head.outline, Decl.preparedOutline, isStatic, hasStatic]
    | var v =>
        cases declared : v.declared <;> cases convert : settings.convertImports <;>
          simp [Decl.head, Head.settled, Head.toImport, Head.split, Head.escape, Head.specialize,
            Head.outline, Decl.preparedOutline, declared, convert]
    | function s =>
        have settled : (Decl.function s).head.settled settings = (Decl.function s).head := by
          unfold Head.settled
          split <;> rfl
        rw [settled, Decl.preparedOutline, ← Signature.outline_head]
        rfl
    | module m => cases plain
    | _ =>
        unfold Head.settled
        split <;> rfl
  · -- No pass makes a module out of anything else.
    intro h hh
    obtain ⟨k, hk, rfl⟩ := List.mem_map.mp hh
    rw [Head.isModule_specialize_escape, Head.isModule_of_mem_split hk, Decl.isModule_settled,
      plain]
    rfl

end

/-! ## Modules -/

section

variable (settings : Settings) (path : List String)

/-- The exports interface comes first, and the entries follow as they are. -/
theorem withExports_eq (name suffix : String) (ds : List Decl) :
    withExports name suffix ds =
      (if ds.any fun d => d.head.isExported then
        [.interface (exportsInterface name (ds.filterMap (Decl.exported? suffix)))]
      else []) ++ ds := by
  have any : (ds.any fun d => d.head.isExported) = true ↔
      ds.filterMap (Decl.exported? suffix) ≠ [] := by
    simp [← Decl.isSome_exported? suffix, Option.isSome_iff_ne_none]
  unfold withExports
  split
  case h_1 none => rw [if_neg fun h => any.mp h none, List.nil_append]
  case h_2 some => rw [if_pos (any.mpr some), List.singleton_append]

theorem Module.prepared_eq (m : Module) :
    m.prepared settings path =
      ⟨Word.escape m.name,
        (withExports settings.exportsName settings.staticSuffix
          ((m.entries.flatMap fun d => Decl.splitStatic settings.staticSuffix
            (d.settled settings (pathInside path m.name))).map
              (Decl.rewrite (.addExports settings.exportsName settings.staticSuffix)))).map
          (Decl.spelled settings)⟩ := by
  have imports : m.settledImports settings path =
      { m with entries := m.entries.map fun d =>
        if settings.convertImports then d.importedAt (pathInside path m.name) else d } := by
    unfold Module.settledImports
    split
    · rfl
    · cases m
      simp
  rw [Module.prepared, imports]
  simp only [Module.finished, Module.settledTypes, Module.rewriteEntries, Module.rewrite]
  simp only [Rewriting.splitStatics, Rewriting.addExports, Rewriting.escapeNames,
    Rewriting.quoteFunctions, Rewriting.quoteTypes, Rewriting.specializeOverloads,
    Rewriting.capUnions, Rewriting.ofTypes]
  -- Every pass maps the entries, so the maps before the split go into it.
  simp only [List.map_map, List.flatMap_map]
  rfl

theorem Decl.prepared_module (m : Module) :
    (Decl.module m).prepared settings path = [.module (m.prepared settings path)] := by
  have imports : (if settings.convertImports then (Decl.module m).importedAt path
      else .module m) = .module (m.settledImports settings path) := by
    unfold Module.settledImports
    split
    · cases m
      rw [Decl.importedAt, Decl.allImportedAt_eq_map, Module.importedAt]
    · rfl
  simp only [Decl.prepared, Decl.settled, imports, Decl.rewrite_module, Decl.splitStatic,
    List.map_singleton, Decl.spelled]
  rfl

theorem Decl.outline_spelled_exports (members : List Decl) :
    (Decl.spelled settings (.interface (exportsInterface settings.exportsName members))).outline =
      .interface false (Word.escape settings.exportsName) := by
  have head := Decl.head_spelled settings
    (.interface (exportsInterface settings.exportsName members))
  rw [Decl.outline_eq_head (by rw [head]; rfl), head]
  rfl

theorem any_isExported_split (ds : List Decl) :
    (((ds.flatMap fun d => Decl.splitStatic settings.staticSuffix (d.settled settings path)).map
      (Decl.rewrite (.addExports settings.exportsName settings.staticSuffix))).any
        fun d => d.head.isExported) = ds.any (Decl.isValue settings) := by
  rw [List.any_map, List.any_flatMap]
  congr 1
  funext d
  rw [← Decl.any_isExported settings d, ← Decl.head_settled settings path,
    ← Decl.map_head_splitStatic, List.any_map]
  congr 1
  funext e
  simp only [Function.comp_apply, Decl.head_rewrite (Rewriting.addExports_keepsHeads _ _), id]

/-- The outline of a module, once those of its entries are known. -/
theorem Module.outline_prepared (m : Module)
    (entries : (m.entries.flatMap (Decl.prepared settings (pathInside path m.name))).map
      Decl.outline = Decl.preparedOutlines settings m.entries) :
    (m.prepared settings path).outline = m.preparedOutline settings := by
  rw [Module.prepared_eq, Module.outline, Decl.outlines_eq_map, withExports_eq,
    any_isExported_split, Module.preparedOutline, ← entries, List.map_append, List.map_append]
  congr 2
  · unfold exportsOutline
    split
    · rw [List.map_singleton, List.map_singleton, Decl.outline_spelled_exports]
    · rfl
  · simp only [List.map_flatMap, List.map_map, Decl.prepared]
    rfl

mutual

theorem Decl.map_outline_prepared (d : Decl) (path : List String) :
    (d.prepared settings path).map Decl.outline = d.preparedOutline settings := by
  cases d with
  | module m =>
      obtain ⟨name, entries⟩ := m
      have inside := Decl.map_outline_flatMap_prepared entries (pathInside path name)
      rw [Decl.prepared_module, List.map_singleton, Decl.outline_module,
        Module.outline_prepared settings path ⟨name, entries⟩ inside, Decl.preparedOutline,
        Module.preparedOutline]
  | _ => exact Decl.map_outline_prepared_of_plain settings path rfl

theorem Decl.map_outline_flatMap_prepared (ds : List Decl) (path : List String) :
    (ds.flatMap (Decl.prepared settings path)).map Decl.outline =
      Decl.preparedOutlines settings ds := by
  cases ds with
  | nil => rfl
  | cons d ds =>
      rw [List.flatMap_cons, List.map_append, Decl.map_outline_prepared d path,
        Decl.map_outline_flatMap_prepared ds path, Decl.preparedOutlines]

end

end

/-- Preparing a file keeps its modules and, at every depth, their entries, each
with the outline to expect. -/
theorem prepare_outline (settings : Settings) (f : File) :
    ∃ g, (f.prepare settings).outcome = .ok g ∧ g.name = f.name ∧
      g.modules.map Module.outline = f.modules.map (Module.preparedOutline settings) := by
  obtain ⟨opens, prepared⟩ := prepare_outcome settings f
  refine ⟨_, prepared, rfl, ?_⟩
  rw [List.map_map]
  apply List.map_congr_left
  intro m _
  exact Module.outline_prepared settings [f.name] m
    (Decl.map_outline_flatMap_prepared settings m.entries _)

example :
    Module.preparedOutline { convertImports := true } ⟨"new", [
      .var ⟨true, "type", .named "T"⟩,
      .interface ⟨false, "Chart", [], [], [.property ⟨none, true, none, "all", false, .obj⟩]⟩,
      .function ⟨none, false, some "on", [], [⟨"event", false, false, .literal "end"⟩], .unit⟩]⟩ =
    .module "\x60\x60new\x60\x60" [
      .interface false "IExports",
      .imported "\x60\x60type\x60\x60",
      .interface false "Chart",
      .interface true "ChartStatic",
      .function (some "on_end")] := by
  rfl

end Bindgen
