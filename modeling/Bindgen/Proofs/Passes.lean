import Bindgen.Pass.Apply
import Bindgen.Proofs.Rewriting

/-! # What the passes yield

No pass fails. Each of them rewrites every module of a file on its own, and
`prepare_outcome` puts their rewritings together: apart from the opened
namespaces, preparing a file is preparing its modules one by one.
-/

namespace Bindgen

namespace Rewriting

def ofTypes (f : Decl -> Decl) (hp : ∀ p, f (.param p) = .param p)
    (hm : ∀ m, f (.module m) = .module m) : Rewriting where
  apply := f
  onParam p := p
  onModule m := m
  apply_param := hp
  apply_module := hm

def unchanged : Rewriting :=
  ofTypes (fun d => d) (fun _ => rfl) fun _ => rfl

def resolveSelf : Rewriting :=
  ofTypes Decl.resolveSelf (fun _ => rfl) fun _ => rfl

def collapseArrays (marker : String) : Rewriting :=
  ofTypes (Decl.collapseArray marker) (fun _ => rfl) fun _ => rfl

def renameDates : Rewriting :=
  ofTypes Decl.renameDate (fun _ => rfl) fun _ => rfl

def splitStatics (suffix : String) : Rewriting where
  apply := Decl.splitEntries suffix
  onParam p := p
  onModule m := { m with entries := m.entries.flatMap (Decl.splitStatic suffix) }
  apply_param _ := rfl
  apply_module _ := rfl

def addExports (name suffix : String) : Rewriting where
  apply := Decl.addExports name suffix
  onParam p := p
  onModule m := { m with entries := withExports name suffix m.entries }
  apply_param _ := rfl
  apply_module _ := rfl

def escapeNames : Rewriting where
  apply := Decl.escapeName
  onParam p := { p with name := Word.escape p.name }
  onModule m := { m with name := Word.escape m.name }
  apply_param _ := rfl
  apply_module _ := rfl

def quoteNames (bound : List String) : Rewriting :=
  ofTypes (Decl.quoteName bound) (fun _ => rfl) fun _ => rfl

def specializeOverloads : Rewriting :=
  ofTypes Decl.specialize (fun _ => rfl) fun _ => rfl

end Rewriting

def Decl.quoted (typeParams : List Decl) (d : Decl) : Decl :=
  if typeParams.isEmpty then d else d.rewrite (.quoteNames (Decl.typeTexts typeParams))

def Decl.quotedFunction : Decl -> Decl
  | .function f => (Decl.function f).quoted f.typeParams
  | d => d

def Decl.quotedMembers : Decl -> Decl
  | .interface i => .interface { i with members := i.members.map Decl.quotedFunction }
  | d => d

def Decl.quotedType : Decl -> Decl
  | .interface i => (Decl.interface i).quoted i.typeParams
  | .typeAlias a => (Decl.typeAlias a).quoted a.typeParams
  | d => d

def Decl.cappedUnion (limit : Int) : Decl -> Decl
  | .union optional alternatives =>
    if limit < (Decl.dedupe alternatives).length then .obj
    else .union optional (Decl.dedupe alternatives)
  | d => d

namespace Rewriting

def quoteFunctions : Rewriting :=
  ofTypes Decl.quotedMembers (fun _ => rfl) fun _ => rfl

def quoteTypes : Rewriting :=
  ofTypes Decl.quotedType (fun _ => rfl) fun _ => rfl

def capUnions (limit : Int) : Rewriting :=
  ofTypes (Decl.cappedUnion limit) (fun _ => rfl) fun _ => rfl

end Rewriting

/-! ## Rules that record events -/

theorem noteMarked_follows (mark : String) : (noteMarked mark).Follows .unchanged := by
  intro d
  cases d with
  | named name =>
      simp only [noteMarked]
      split <;> rfl
  | _ => rfl

theorem quoteParams_outcome (typeParams : List Decl) (d : Decl) :
    (quoteParams typeParams d).outcome = .ok (d.quoted typeParams) := by
  unfold quoteParams Decl.quoted
  split
  · rfl
  · have quote : (Rule.pure (Decl.quoteName (Decl.typeTexts typeParams)) : Rule Event).Follows
        (.quoteNames (Decl.typeTexts typeParams)) := fun _ => rfl
    rw [Traced.outcome_bind rfl, Decl.transform_outcome quote]

theorem quoteFunction_outcome (d : Decl) : d.quoteFunction.outcome = .ok d.quotedFunction := by
  cases d with
  | function f => exact quoteParams_outcome f.typeParams (.function f)
  | _ => rfl

theorem quoteFunctionMembers_follows : quoteFunctionMembers.Follows .quoteFunctions := by
  intro d
  cases d with
  | interface i =>
      rw [quoteFunctionMembers,
        Traced.outcome_bind (Traced.outcome_traverse quoteFunction_outcome i.members)]
      rfl
  | _ => rfl

theorem quoteType_follows : quoteType.Follows .quoteTypes := by
  intro d
  cases d with
  | interface i => exact quoteParams_outcome i.typeParams (.interface i)
  | typeAlias a => exact quoteParams_outcome a.typeParams (.typeAlias a)
  | _ => rfl

theorem capUnion_follows (limit : Int) : (capUnion limit).Follows (.capUnions limit) := by
  intro d
  cases d with
  | union optional alternatives =>
      simp only [capUnion, Rewriting.capUnions, Rewriting.ofTypes, Decl.cappedUnion]
      split <;> rfl
  | _ => rfl

/-! ## Imports -/

mutual

/-- The entry with its path, a declared variable as an import. -/
def Decl.importedAt (path : List String) : Decl -> Decl
  | .module ⟨name, entries⟩ => .module ⟨name, Decl.allImportedAt (pathInside path name) entries⟩
  | .imported i => .imported { i with path }
  | .var ⟨declared, name, type⟩ =>
    if declared then .imported ⟨path, name, type.typeText⟩ else .var ⟨declared, name, type⟩
  | d => d

def Decl.allImportedAt (path : List String) : List Decl -> List Decl
  | [] => []
  | d :: ds => d.importedAt path :: Decl.allImportedAt path ds

end

theorem Decl.allImportedAt_eq_map (path : List String) (ds : List Decl) :
    Decl.allImportedAt path ds = ds.map (Decl.importedAt path) := by
  induction ds with
  | nil => rfl
  | cons d ds ih => rw [Decl.allImportedAt, ih, List.map_cons]

mutual

theorem convertImport_outcome (path : List String) (d : Decl) :
    (d.convertImport path).outcome = .ok (d.importedAt path) := by
  cases d with
  | module m =>
      obtain ⟨name, entries⟩ := m
      rw [Decl.convertImport, Decl.importedAt,
        Traced.outcome_bind (convertImports_outcome _ entries), Traced.outcome_done]
  | imported i => rw [Decl.convertImport, Decl.importedAt, Traced.outcome_done]
  | var v =>
      obtain ⟨declared, name, type⟩ := v
      rw [Decl.convertImport, Decl.importedAt]
      split <;> rfl
  | _ => rfl

theorem convertImports_outcome (path : List String) (ds : List Decl) :
    (Decl.convertImports path ds).outcome = .ok (Decl.allImportedAt path ds) := by
  cases ds with
  | nil => rw [Decl.convertImports, Decl.allImportedAt, Traced.outcome_done]
  | cons d ds =>
      rw [Decl.convertImports, Traced.outcome_bind (convertImport_outcome path d),
        Traced.outcome_bind (convertImports_outcome path ds), Traced.outcome_done,
        Decl.allImportedAt]

end

def Module.importedAt (path : List String) (m : Module) : Module :=
  { m with entries := m.entries.map (Decl.importedAt (pathInside path m.name)) }

theorem Module.convertImports_outcome (path : List String) (m : Module) :
    (m.convertImports path).outcome = .ok (m.importedAt path) := by
  rw [Module.convertImports, Traced.outcome_bind (Bindgen.convertImports_outcome _ m.entries),
    Traced.outcome_done, Decl.allImportedAt_eq_map, Module.importedAt]

/-! ## Files -/

theorem mapModules_outcome {pass : Module -> Traced Event PassError Module}
    {g : Module -> Module} (h : ∀ m, (pass m).outcome = .ok (g m)) (f : File) :
    (f.mapModules pass).outcome = .ok { f with modules := f.modules.map g } := by
  rw [File.mapModules, Traced.outcome_bind (Traced.outcome_traverse h f.modules),
    Traced.outcome_done]

section

variable {ω : Type}

theorem resolveSelf_outcome (m : Module) :
    (m.resolveSelf : Traced ω PassError Module).outcome = .ok (m.rewriteEntries .resolveSelf) :=
  Module.transform_outcome (fun _ => rfl) m

theorem collapseArrays_outcome (marker : String) (m : Module) :
    (m.collapseArrays marker : Traced ω PassError Module).outcome =
      .ok (m.rewriteEntries (.collapseArrays marker)) :=
  Module.transform_outcome (fun _ => rfl) m

theorem renameDates_outcome (m : Module) :
    (m.renameDates : Traced ω PassError Module).outcome = .ok (m.rewriteEntries .renameDates) :=
  Module.transform_outcome (fun _ => rfl) m

theorem splitStatics_outcome (suffix : String) (f : File) :
    (f.splitStatics suffix : Traced ω PassError File).outcome =
      .ok (f.rewrite (.splitStatics suffix)) :=
  File.transform_outcome (fun _ => rfl) f

theorem addExports_outcome (name suffix : String) (f : File) :
    (f.addExports name suffix : Traced ω PassError File).outcome =
      .ok (f.rewrite (.addExports name suffix)) :=
  File.transform_outcome (fun _ => rfl) f

theorem escapeNames_outcome (f : File) :
    (f.escapeNames : Traced ω PassError File).outcome = .ok (f.rewrite .escapeNames) :=
  File.transform_outcome (fun _ => rfl) f

theorem specializeOverloads_outcome (f : File) :
    (f.specializeOverloads : Traced ω PassError File).outcome =
      .ok (f.rewrite .specializeOverloads) :=
  File.transform_outcome (fun _ => rfl) f

end

theorem quoteFunctions_outcome (f : File) :
    f.quoteFunctions.outcome = .ok (f.rewrite .quoteFunctions) :=
  File.transform_outcome quoteFunctionMembers_follows f

theorem quoteTypes_outcome (f : File) : f.quoteTypes.outcome = .ok (f.rewrite .quoteTypes) :=
  File.transform_outcome quoteType_follows f

theorem capUnions_outcome (limit : Int) (f : File) :
    (f.capUnions limit).outcome = .ok (f.rewrite (.capUnions limit)) :=
  File.transform_outcome (capUnion_follows limit) f

/-- The file stays, or what it had not opened is opened now. -/
theorem openMarked_cases (mark opened : String) (f : File) :
    (f.openMarked mark opened).outcome = .ok f ∨
      opened ∉ f.opens ∧
        (f.openMarked mark opened).outcome = .ok { f with opens := f.opens ++ [opened] } := by
  have scan := Decl.transform_outcome (noteMarked_follows mark) (.file f)
  unfold File.openMarked
  generalize Decl.transform (noteMarked mark) (.file f) = scanned at scan
  obtain ⟨names, outcome⟩ := scanned
  subst scan
  cases names with
  | nil => exact .inl rfl
  | cons name names =>
      by_cases isOpen : f.opens.contains opened = true
      · left
        simp only [if_pos isOpen]
        rfl
      · right
        simp only [if_neg isOpen]
        exact ⟨fun old => isOpen (List.contains_iff_mem.mpr old), rfl⟩

/-- Looking for browser types changes nothing but what is opened. -/
theorem openMarked_outcome (mark opened : String) (f : File) :
    ∃ opens, (f.openMarked mark opened).outcome = .ok { f with opens } := by
  rcases openMarked_cases mark opened f with same | ⟨-, added⟩
  · refine ⟨f.opens, ?_⟩
    rw [same]
    cases f
    rfl
  · exact ⟨_, added⟩

/-! ## All passes together -/

/-- The types of a module settled: its own type spelled out, arrays of nodes
collapsed, dates renamed. -/
def Module.settledTypes (m : Module) : Module :=
  ((m.rewriteEntries .resolveSelf).rewriteEntries (.collapseArrays nodeArrayMarker)).rewriteEntries
    .renameDates

def Module.settledImports (settings : Settings) (path : List String) (m : Module) : Module :=
  if settings.convertImports then m.importedAt path else m

def Module.finished (settings : Settings) (m : Module) : Module :=
  ((((((m.rewrite (.splitStatics settings.staticSuffix)).rewrite
    (.addExports settings.exportsName settings.staticSuffix)).rewrite
    .escapeNames).rewrite .quoteFunctions).rewrite .quoteTypes).rewrite
    .specializeOverloads).rewrite (.capUnions settings.maxUnionArity)

/-- The module at `path` after all passes. -/
def Module.prepared (settings : Settings) (path : List String) (m : Module) : Module :=
  (m.settledImports settings path).settledTypes.finished settings

theorem settleTypes_outcome (m : Module) : m.settleTypes.outcome = .ok m.settledTypes := by
  rw [Module.settleTypes, Traced.outcome_bind (resolveSelf_outcome m),
    Traced.outcome_bind (collapseArrays_outcome nodeArrayMarker _), renameDates_outcome,
    Module.settledTypes]

theorem settleImports_outcome (settings : Settings) (f : File) :
    (f.settleImports settings).outcome =
      .ok { f with modules := f.modules.map (Module.settledImports settings [f.name]) } := by
  unfold File.settleImports Module.settledImports
  split
  · exact mapModules_outcome (Module.convertImports_outcome [f.name]) f
  · cases f
    simp

/-- The file with imports and types settled, as it is when browser types are
looked for. -/
def File.settled (settings : Settings) (f : File) : File :=
  { f with
    modules := (f.modules.map (Module.settledImports settings [f.name])).map Module.settledTypes }

/-- What the settled file opens is what the prepared file opens. -/
theorem prepare_outcome_of_opened {settings : Settings} {f : File} {opens : List String}
    (opened : ((f.settled settings).openMarked settings.browserMark settings.browserOpen).outcome =
      .ok { f.settled settings with opens }) :
    (f.prepare settings).outcome =
      .ok ⟨f.name, opens, f.modules.map (Module.prepared settings [f.name])⟩ := by
  rw [File.settled] at opened
  rw [File.prepare, Traced.outcome_bind (settleImports_outcome settings f),
    Traced.outcome_bind (mapModules_outcome settleTypes_outcome _), Traced.outcome_bind opened,
    Traced.outcome_bind (splitStatics_outcome settings.staticSuffix _),
    Traced.outcome_bind (addExports_outcome settings.exportsName settings.staticSuffix _),
    Traced.outcome_bind (escapeNames_outcome _), Traced.outcome_bind (quoteFunctions_outcome _),
    Traced.outcome_bind (quoteTypes_outcome _),
    Traced.outcome_bind (specializeOverloads_outcome _),
    Traced.outcome_bind (capUnions_outcome settings.maxUnionArity _), Traced.outcome_bind rfl]
  simp only [File.rewrite, List.map_map, Traced.outcome_done]
  rfl

/-- Preparing a file never fails: each module is prepared on its own. Only what
is opened depends on the whole file, and at most one namespace is added. -/
theorem prepare_outcome_opens (settings : Settings) (f : File) :
    ∃ opens, (∀ o ∈ opens, o ∈ f.opens ∨ o = settings.browserOpen) ∧
      (f.prepare settings).outcome =
        .ok ⟨f.name, opens, f.modules.map (Module.prepared settings [f.name])⟩ := by
  rcases openMarked_cases settings.browserMark settings.browserOpen (f.settled settings) with
    same | ⟨-, added⟩
  · exact ⟨f.opens, fun _ => .inl, prepare_outcome_of_opened same⟩
  · refine ⟨_, ?_, prepare_outcome_of_opened added⟩
    exact fun o ho => (List.mem_append.mp ho).imp_right List.mem_singleton.mp

theorem prepare_outcome (settings : Settings) (f : File) :
    ∃ opens, (f.prepare settings).outcome =
      .ok ⟨f.name, opens, f.modules.map (Module.prepared settings [f.name])⟩ := by
  obtain ⟨opens, -, prepared⟩ := prepare_outcome_opens settings f
  exact ⟨opens, prepared⟩

theorem File.modules_of_prepare {settings : Settings} {f g : File}
    (h : (f.prepare settings).outcome = .ok g) :
    g.modules = f.modules.map (Module.prepared settings [f.name]) := by
  obtain ⟨opens, outcome⟩ := prepare_outcome settings f
  rw [h] at outcome
  rw [Except.ok.inj outcome]

end Bindgen
