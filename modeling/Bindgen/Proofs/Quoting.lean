import Bindgen.Proofs.Layers

/-! # Quoted type parameters

Two passes put a quote before the names of type parameters: one for those of
the function members of interfaces, one for those of interfaces and aliases.
In a layered file they come to one rule: a name gets a single quote where it
is bound, by the member, the interface or the alias around it, and nowhere else.
-/

namespace Bindgen

/-! ## Rewriting names -/

/-- Apply a function to the names of types and to nothing else. -/
def Decl.mapName (f : String -> String) : Decl -> Decl
  | .named name => .named (f name)
  | d => d

namespace Rewriting

def onNames (f : String -> String) : Rewriting :=
  ofTypes (Decl.mapName f) (fun _ => rfl) fun _ => rfl

def eraseNames : Rewriting :=
  onNames fun _ => ""

end Rewriting

/-- A name with a quote before it if it is bound. -/
def quoteIn (bound : List String) (name : String) : String :=
  if bound.contains name then "\x27" ++ name else name

theorem Rewriting.quoteNames_eq_onNames (bound : List String) :
    quoteNames bound = onNames (quoteIn bound) := by
  have same : Decl.quoteName bound = Decl.mapName (quoteIn bound) := by
    funext d
    cases d <;> rfl
  unfold quoteNames onNames
  simp only [same]

theorem Decl.rewrite_onNames_of_not_named {f : String -> String} {d : Decl}
    (h : ∀ name, d ≠ .named name) : d.rewrite (.onNames f) = d.rebuild (.onNames f) := by
  rw [Decl.rewrite_eq_apply]
  cases d with
  | named name => exact absurd rfl (h name)
  | _ => rfl

theorem Decl.rewrite_onNames_onNames (f g : String -> String) (d : Decl) :
    (d.rewrite (.onNames f)).rewrite (.onNames g) =
      d.rewrite (.onNames fun name => g (f name)) := by
  induction d using Decl.children_induction with
  | step d ih =>
      by_cases isNamed : ∃ name, d = .named name
      · obtain ⟨name, rfl⟩ := isNamed
        rfl
      · have notNamed : ∀ name, d ≠ .named name := fun name h => isNamed ⟨name, h⟩
        have rebuilt : ∀ name, d.rebuild (.onNames f) ≠ .named name := by
          intro name h
          cases d <;> simp_all [Decl.rebuild]
        rw [rewrite_onNames_of_not_named notNamed, rewrite_onNames_of_not_named rebuilt,
          rewrite_onNames_of_not_named notNamed, Decl.rebuild_rebuild,
          Decl.rebuild_eq_mapChildren]
        exact Decl.mapChildren_congr ih

/-! ## Quotes -/

def isQuoted (name : String) : Bool :=
  name.toList.head? == some '\x27'

def isTwiceQuoted (name : String) : Bool :=
  ['\x27', '\x27'].isPrefixOf name.toList

theorem isQuoted_quote (name : String) : isQuoted ("\x27" ++ name) = true := by
  simp [isQuoted]

theorem isTwiceQuoted_of_not_isQuoted {name : String} (h : isQuoted name = false) :
    isTwiceQuoted name = false := by
  unfold isQuoted at h
  unfold isTwiceQuoted
  cases chars : name.toList with
  | nil => rfl
  | cons c cs =>
      have other : c ≠ '\x27' := by simpa [chars] using h
      simp [List.isPrefixOf, other.symm]

theorem isTwiceQuoted_quote {name : String} (h : isQuoted name = false) :
    isTwiceQuoted ("\x27" ++ name) = false := by
  unfold isQuoted at h
  unfold isTwiceQuoted
  cases chars : name.toList with
  | nil => simp [chars, List.isPrefixOf]
  | cons c cs =>
      have other : c ≠ '\x27' := by simpa [chars] using h
      simp [chars, List.isPrefixOf, other.symm]

theorem isTwiceQuoted_quoteIn (bound : List String) {name : String} (h : isQuoted name = false) :
    isTwiceQuoted (quoteIn bound name) = false := by
  unfold quoteIn
  split
  · exact isTwiceQuoted_quote h
  · exact isTwiceQuoted_of_not_isQuoted h

/-- An identifier starts with a letter or an underscore. -/
theorem Word.isHead_of_isIdentifierPath {name : String} {c : Char} {cs : List Char}
    (h : isIdentifierPath name = true) (chars : name.toList = c :: cs) : isHead c = true := by
  unfold isIdentifierPath at h
  rw [chars, Text.fields] at h
  by_cases dot : (c == '.') = true
  · simp [dot, isIdentifier] at h
  · simp only [dot] at h
    split at h
    · simp_all
    · split at h
      · simp_all [isIdentifier]
      · simp_all [isIdentifier]

theorem isQuoted_eq_false {name : String} (h : ∀ c cs, name.toList = c :: cs -> c ≠ '\x27') :
    isQuoted name = false := by
  unfold isQuoted
  cases chars : name.toList with
  | nil => rfl
  | cons c cs => simp [h c cs chars]

/-- Identifiers start with no quote, and everything else is put between backticks. -/
theorem isQuoted_escape (name : String) : isQuoted (Word.escape name) = false := by
  apply isQuoted_eq_false
  intro c cs
  unfold Word.escape
  split
  case isTrue kept =>
      intro chars
      have ticked : Word.isTicked (c :: cs) = true := by
        rw [Bool.or_eq_true, chars] at kept
        rcases kept with empty | ticked
        · simp_all
        · exact ticked
      simp only [Word.isTicked, Word.ticks, Bool.and_eq_true, List.isPrefixOf, beq_iff_eq] at ticked
      rw [← ticked.1.1]
      decide
  case isFalse =>
      split
      case isTrue =>
          intro chars
          simp only [Word.ticks, String.toList_ofList, List.cons_append, List.cons.injEq] at chars
          rw [← chars.1]
          decide
      case isFalse plain =>
          intro chars
          have path : Word.isIdentifierPath name = true := by simp_all
          have head := Word.isHead_of_isIdentifierPath path chars
          intro quote
          rw [quote] at head
          exact absurd head (by decide)

theorem quoteIn_quoteIn (bound : List String) {more : List String}
    (h : ∀ name ∈ more, isQuoted name = false) (name : String) :
    quoteIn more (quoteIn bound name) = quoteIn (bound ++ more) name := by
  have fresh : "\x27" ++ name ∉ more := fun hmem => by
    simpa [isQuoted_quote] using h _ hmem
  by_cases hbound : name ∈ bound <;> by_cases hmore : name ∈ more <;>
    simp [quoteIn, hbound, hmore, fresh]

/-- Quoting for one scope after the other is quoting for both. -/
theorem Decl.rewrite_quoteNames_quoteNames (bound : List String) {more : List String}
    (h : ∀ name ∈ more, isQuoted name = false) (d : Decl) :
    (d.rewrite (.quoteNames bound)).rewrite (.quoteNames more) =
      d.rewrite (.quoteNames (bound ++ more)) := by
  simp only [Rewriting.quoteNames_eq_onNames, Decl.rewrite_onNames_onNames,
    quoteIn_quoteIn bound h]

/-! ## Where names are bound -/

def Decl.binds (d : Decl) : List String :=
  d.typeParams.filterMap Decl.name?

/-- What a member of an interface binds; only functions bind anything. -/
def Decl.memberBinds : Decl -> List String
  | .function s => (Decl.function s).binds
  | _ => []

mutual

/-- The entry of a module with a quote before each name that is bound where it
stands. -/
def Decl.quotedEntry : Decl -> Decl
  | .interface i =>
    let own := (Decl.interface i).binds
    .interface { i with
      typeParams := i.typeParams.map (Decl.rewrite (.onNames (quoteIn own)))
      inherits := i.inherits.map (Decl.rewrite (.onNames (quoteIn own)))
      members := i.members.map fun m =>
        m.rewrite (.onNames (quoteIn (m.memberBinds ++ own))) }
  | .typeAlias a =>
    let own := (Decl.typeAlias a).binds
    .typeAlias { a with
      type := a.type.rewrite (.onNames (quoteIn own))
      typeParams := a.typeParams.map (Decl.rewrite (.onNames (quoteIn own))) }
  | .module ⟨name, entries⟩ => .module ⟨name, Decl.quotedEntries entries⟩
  | d => d

def Decl.quotedEntries : List Decl -> List Decl
  | [] => []
  | d :: ds => d.quotedEntry :: Decl.quotedEntries ds

end

def Module.quoted (m : Module) : Module :=
  { m with entries := m.entries.map Decl.quotedEntry }

theorem Decl.quotedEntry_interface (i : Interface) :
    (Decl.interface i).quotedEntry =
      .interface { i with
        typeParams := i.typeParams.map (Decl.rewrite (.quoteNames (Decl.interface i).binds))
        inherits := i.inherits.map (Decl.rewrite (.quoteNames (Decl.interface i).binds))
        members := i.members.map fun m =>
          m.rewrite (.quoteNames (m.memberBinds ++ (Decl.interface i).binds)) } := by
  simp only [Decl.quotedEntry, Rewriting.quoteNames_eq_onNames]

theorem Decl.quotedEntry_typeAlias (a : Alias) :
    (Decl.typeAlias a).quotedEntry =
      .typeAlias { a with
        type := a.type.rewrite (.quoteNames (Decl.typeAlias a).binds)
        typeParams := a.typeParams.map (Decl.rewrite (.quoteNames (Decl.typeAlias a).binds)) } := by
  simp only [Decl.quotedEntry, Rewriting.quoteNames_eq_onNames]

theorem Decl.quotedEntries_eq_map (ds : List Decl) :
    Decl.quotedEntries ds = ds.map Decl.quotedEntry := by
  induction ds with
  | nil => rfl
  | cons d ds ih => rw [Decl.quotedEntries, ih, List.map_cons]

theorem Decl.quotedEntry_module (m : Module) : (Decl.module m).quotedEntry = .module m.quoted := by
  cases m
  rw [Decl.quotedEntry, Decl.quotedEntries_eq_map, Module.quoted]

/-! ## The two passes on layered declarations -/

theorem typeTexts_eq_filterMap {typeParams : List Decl}
    (h : ∀ p ∈ typeParams, ∃ name, p = .named name) :
    Decl.typeTexts typeParams = typeParams.filterMap Decl.name? := by
  induction typeParams with
  | nil => rfl
  | cons p ps ih =>
      obtain ⟨name, rfl⟩ := h p List.mem_cons_self
      rw [Decl.typeTexts, ih fun q hq => h q (List.mem_cons_of_mem _ hq)]
      rfl

/-- Without type parameters there is nothing to quote. -/
theorem Decl.quoted_eq_rewrite (typeParams : List Decl) (d : Decl) :
    d.quoted typeParams = d.rewrite (.quoteNames (Decl.typeTexts typeParams)) := by
  unfold Decl.quoted
  split
  case isTrue none =>
      rw [List.isEmpty_iff.mp none, Decl.rewrite_eq_self]
      intro e _
      cases e <;> rfl
  case isFalse => rfl

theorem Decl.Every.not_topLevel {d : Decl} (h : d.Every Decl.Layered)
    (plain : d.isTopLevel = false) : d.Every fun e => e.isTopLevel = false := by
  induction d using Decl.children_induction with
  | step d ih =>
      have notModule : d.module? = none := by
        cases d <;> simp_all [Decl.isTopLevel, Decl.module?]
      refine Decl.every_iff.mpr ⟨plain, ?_⟩
      intro c hc
      exact ih c hc (h.child hc) (h.self.inside notModule c hc)

theorem Decl.rewrite_quoteFunctions_of_plain {d : Decl}
    (h : d.Every fun e => e.isTopLevel = false) : d.rewrite .quoteFunctions = d := by
  refine Decl.rewrite_eq_self (h.mono ?_)
  intro e plain
  cases e with
  | interface i => cases plain
  | _ => rfl

theorem Decl.rewrite_quoteTypes_of_plain {d : Decl}
    (h : d.Every fun e => e.isTopLevel = false) : d.rewrite .quoteTypes = d := by
  refine Decl.rewrite_eq_self (h.mono ?_)
  intro e plain
  cases e with
  | interface i => cases plain
  | typeAlias a => cases plain
  | _ => rfl

theorem Rewriting.quoteNames_keeps_plain (bound : List String) :
    (Rewriting.quoteNames bound).Keeps fun e => e.isTopLevel = false := by
  refine ⟨fun d hd => by cases d <;> simp_all [Decl.rebuild, Decl.isTopLevel], ?_⟩
  intro d hd
  cases d with
  | named name => exact Decl.every_named rfl
  | _ => exact hd

theorem Decl.mem_children_of_mem_typeParams {p d : Decl} (h : p ∈ d.typeParams) :
    p ∈ d.children := by
  cases d with
  | interface i => exact List.mem_append_left _ (List.mem_append_left _ h)
  | function s => exact List.mem_append_left _ (List.mem_append_left _ h)
  | typeAlias a => exact List.mem_cons_of_mem _ h
  | _ => cases h

def Decl.Unquoted (d : Decl) : Prop :=
  ∀ name, d = .named name -> isQuoted name = false

theorem Decl.Every.unquoted_binds {d : Decl} (unquoted : d.Every Decl.Unquoted)
    (h : d.Every Decl.Layered) : ∀ name ∈ d.binds, isQuoted name = false := by
  intro name hname
  obtain ⟨p, hp, isName⟩ := List.mem_filterMap.mp hname
  obtain ⟨spelling, rfl⟩ := h.self.typeParams p hp
  cases isName
  exact (unquoted.child (Decl.mem_children_of_mem_typeParams hp)).self name rfl

theorem Decl.typeTexts_typeParams {d : Decl} (h : d.Every Decl.Layered) :
    Decl.typeTexts d.typeParams = d.binds :=
  typeTexts_eq_filterMap h.self.typeParams

section

variable {i : Interface} {a : Alias}

/-- A member, quoted for itself and then for the interface it is in. -/
theorem Decl.rewrite_quotedFunction {m : Decl} (h : m.Every Decl.Layered) {own : List String}
    (unquoted : ∀ name ∈ own, isQuoted name = false) :
    m.quotedFunction.rewrite (.quoteNames own) =
      m.rewrite (.quoteNames (m.memberBinds ++ own)) := by
  cases m with
  | function s =>
      have texts : Decl.typeTexts s.typeParams = (Decl.function s).memberBinds :=
        Decl.typeTexts_typeParams h
      rw [Decl.quotedFunction, Decl.quoted_eq_rewrite, texts,
        Decl.rewrite_quoteNames_quoteNames _ unquoted]
  | _ => rfl

theorem Interface.rewrite_quotes (h : (Decl.interface i).Every Decl.Layered)
    (unquoted : (Decl.interface i).Every Decl.Unquoted) :
    ((Decl.interface i).rewrite .quoteFunctions).rewrite .quoteTypes =
      (Decl.interface i).quotedEntry := by
  have plain : ∀ c ∈ (Decl.interface i).children, c.Every fun e => e.isTopLevel = false :=
    fun c hc => (h.child hc).not_topLevel (h.self.inside rfl c hc)
  -- Only members that are functions change in the first pass.
  have first : (Decl.interface i).rewrite .quoteFunctions =
      .interface { i with members := i.members.map Decl.quotedFunction } := by
    rw [Decl.rewrite_eq_apply, Decl.rebuild_eq_self fun c hc =>
      Decl.rewrite_quoteFunctions_of_plain (plain c hc)]
    rfl
  have inside : ∀ c ∈ (Decl.interface { i with
      members := i.members.map Decl.quotedFunction }).children, c.rewrite .quoteTypes = c := by
    intro c hc
    apply Decl.rewrite_quoteTypes_of_plain
    rcases List.mem_append.mp hc with hc | hc
    · exact plain c (List.mem_append_left _ hc)
    · obtain ⟨m, hm, rfl⟩ := List.mem_map.mp hc
      exact (plain m (List.mem_append_right _ hm)).quotedFunction Rewriting.quoteNames_keeps_plain
  have members : (i.members.map Decl.quotedFunction).map
      (Decl.rewrite (.quoteNames (Decl.interface i).binds)) =
      i.members.map fun m =>
        m.rewrite (.quoteNames (m.memberBinds ++ (Decl.interface i).binds)) := by
    rw [List.map_map]
    apply List.map_congr_left
    intro m hm
    exact Decl.rewrite_quotedFunction (h.child (List.mem_append_right _ hm))
      (unquoted.unquoted_binds h)
  have texts : Decl.typeTexts i.typeParams = (Decl.interface i).binds :=
    Decl.typeTexts_typeParams h
  rw [first, Decl.rewrite_eq_apply, Decl.rebuild_eq_self inside, Decl.quotedEntry_interface,
    ← members, ← texts]
  exact (Decl.quoted_eq_rewrite i.typeParams _).trans (Decl.rewrite_eq_apply _ _)

theorem Alias.rewrite_quotes (h : (Decl.typeAlias a).Every Decl.Layered) :
    ((Decl.typeAlias a).rewrite .quoteFunctions).rewrite .quoteTypes =
      (Decl.typeAlias a).quotedEntry := by
  have plain : ∀ c ∈ (Decl.typeAlias a).children, c.Every fun e => e.isTopLevel = false :=
    fun c hc => (h.child hc).not_topLevel (h.self.inside rfl c hc)
  have first : (Decl.typeAlias a).rewrite .quoteFunctions = .typeAlias a := by
    rw [Decl.rewrite_eq_apply, Decl.rebuild_eq_self fun c hc =>
      Decl.rewrite_quoteFunctions_of_plain (plain c hc)]
    rfl
  have texts : Decl.typeTexts a.typeParams = (Decl.typeAlias a).binds :=
    Decl.typeTexts_typeParams h
  rw [first, Decl.rewrite_eq_apply, Decl.rebuild_eq_self fun c hc =>
    Decl.rewrite_quoteTypes_of_plain (plain c hc), Decl.quotedEntry_typeAlias, ← texts]
  exact (Decl.quoted_eq_rewrite a.typeParams _).trans (Decl.rewrite_eq_apply _ _)

end

/-- The two passes quote every name where it is bound. -/
theorem Decl.rewrite_quotes (d : Decl) (h : d.Every Decl.Layered)
    (unquoted : d.Every Decl.Unquoted) :
    (d.rewrite .quoteFunctions).rewrite .quoteTypes = d.quotedEntry := by
  induction d using Decl.children_induction with
  | step d ih =>
      cases d with
      | interface i => exact Interface.rewrite_quotes h unquoted
      | typeAlias a => exact Alias.rewrite_quotes h
      | module m =>
          have entries : (m.entries.map (Decl.rewrite .quoteFunctions)).map
              (Decl.rewrite .quoteTypes) = m.entries.map Decl.quotedEntry := by
            rw [List.map_map]
            apply List.map_congr_left
            intro e he
            exact ih e he (h.child he) (unquoted.child he)
          rw [Decl.rewrite_module, Decl.rewrite_module, Decl.quotedEntry_module, Module.quoted,
            ← entries]
          rfl
      | _ =>
          have plain := h.not_topLevel rfl
          rw [Decl.rewrite_quoteFunctions_of_plain plain, Decl.rewrite_quoteTypes_of_plain plain]
          rfl

/-! ## What is quoted, and how often -/

theorem Decl.rewrite_eraseNames_quoteNames (bound : List String) (d : Decl) :
    (d.rewrite (.quoteNames bound)).rewrite .eraseNames = d.rewrite .eraseNames := by
  rw [Rewriting.quoteNames_eq_onNames, Rewriting.eraseNames, Decl.rewrite_onNames_onNames]

/-- Quoting changes nothing but names. -/
theorem Decl.rewrite_eraseNames_quotedEntry (d : Decl) :
    d.quotedEntry.rewrite .eraseNames = d.rewrite .eraseNames := by
  induction d using Decl.children_induction with
  | step d ih =>
      cases d with
      | interface i =>
          rw [Decl.quotedEntry_interface, Decl.rewrite_eq_apply, Decl.rewrite_eq_apply]
          simp only [Decl.rebuild, List.map_map, Function.comp_def,
            Decl.rewrite_eraseNames_quoteNames]
      | typeAlias a =>
          rw [Decl.quotedEntry_typeAlias, Decl.rewrite_eq_apply _ (Decl.typeAlias a),
            Decl.rewrite_eq_apply _ (Decl.typeAlias _)]
          simp only [Decl.rebuild, List.map_map, Function.comp_def,
            Decl.rewrite_eraseNames_quoteNames]
      | module m =>
          rw [Decl.quotedEntry_module, Decl.rewrite_eq_apply, Decl.rewrite_eq_apply]
          simp only [Decl.rebuild, Module.quoted, List.map_map]
          congr 3
          exact List.map_congr_left ih
      | _ => rfl

def Decl.QuotedOnce (d : Decl) : Prop :=
  ∀ name, d = .named name -> isTwiceQuoted name = false

theorem Decl.Every.rewrite_quoteNames {d : Decl} (h : d.Every Decl.Unquoted)
    (bound : List String) : (d.rewrite (.quoteNames bound)).Every Decl.QuotedOnce := by
  refine h.rewrite ?_
  intro d unquoted inside
  cases d with
  | named name =>
      refine Decl.every_named ?_
      rintro _ ⟨⟩
      exact isTwiceQuoted_quoteIn bound (unquoted name rfl)
  | _ => exact Decl.every_iff.mpr ⟨nofun, inside⟩

theorem Decl.Every.quotedEntry {d : Decl} (h : d.Every Decl.Unquoted) :
    d.quotedEntry.Every Decl.QuotedOnce := by
  induction d using Decl.children_induction with
  | step d ih =>
      cases d with
      | interface i =>
          rw [Decl.quotedEntry_interface]
          refine Decl.every_iff.mpr ⟨by rintro _ ⟨⟩, ?_⟩
          simp only [Decl.children, List.forall_mem_append, List.forall_mem_map]
          refine ⟨⟨?_, ?_⟩, ?_⟩
          · exact fun c hc =>
              (h.child (Decl.mem_children_of_mem_typeParams hc)).rewrite_quoteNames _
          · exact fun c hc => (h.child (List.mem_append_left _
              (List.mem_append_right _ hc))).rewrite_quoteNames _
          · exact fun c hc => (h.child (List.mem_append_right _ hc)).rewrite_quoteNames _
      | typeAlias a =>
          rw [Decl.quotedEntry_typeAlias]
          refine Decl.every_iff.mpr ⟨by rintro _ ⟨⟩, ?_⟩
          simp only [Decl.children, List.forall_mem_cons, List.forall_mem_map]
          refine ⟨(h.child List.mem_cons_self).rewrite_quoteNames _, ?_⟩
          exact fun c hc => (h.child (List.mem_cons_of_mem _ hc)).rewrite_quoteNames _
      | module m =>
          rw [Decl.quotedEntry_module]
          refine Decl.every_iff.mpr ⟨by rintro _ ⟨⟩, ?_⟩
          simp only [Decl.children, Module.quoted, List.forall_mem_map]
          exact fun e he => ih e he (h.child he)
      | _ =>
          refine h.mono ?_
          rintro e unquoted name rfl
          exact isTwiceQuoted_of_not_isQuoted (unquoted name rfl)

theorem Decl.every_unquoted_escapeNames (d : Decl) :
    (d.rewrite .escapeNames).Every Decl.Unquoted := by
  have anything : d.Every fun _ => True := fun _ _ => trivial
  refine anything.rewrite ?_
  intro d _ inside
  cases d with
  | named name =>
      refine Decl.every_named ?_
      rintro _ ⟨⟩
      exact isQuoted_escape name
  | _ => exact Decl.every_iff.mpr ⟨nofun, inside⟩

/-! ## Files -/

/-- The passes up to the escaping of names. -/
def File.escaped (settings : Settings) (f : File) : Traced Event PassError File := do
  let f ← f.settleImports settings
  let f ← f.mapModules Module.settleTypes
  let f ← f.openMarked settings.browserMark settings.browserOpen
  let f ← f.splitStatics settings.staticSuffix
  let f ← f.addExports settings.exportsName settings.staticSuffix
  f.escapeNames

/-- The passes behind the quoting of type parameters. -/
def File.narrowed (settings : Settings) (f : File) : Traced Event PassError File := do
  let f ← f.specializeOverloads
  let f ← f.capUnions settings.maxUnionArity
  .note (.passesApplied f.name f.modules.length)
  .done f

theorem File.prepare_eq (settings : Settings) (f : File) :
    f.prepare settings = (do
      let g ← f.escaped settings
      let h ← (do
        let g ← g.quoteFunctions
        g.quoteTypes)
      h.narrowed settings) := by
  simp only [File.prepare, File.escaped, File.narrowed, bind_assoc]

def Module.escaped (settings : Settings) (path : List String) (m : Module) : Module :=
  (((m.settledImports settings path).settledTypes.rewrite
    (.splitStatics settings.staticSuffix)).rewrite
    (.addExports settings.exportsName settings.staticSuffix)).rewrite .escapeNames

theorem File.escaped_outcome (settings : Settings) (f : File) :
    ∃ opens, (f.escaped settings).outcome =
      .ok ⟨f.name, opens, f.modules.map (Module.escaped settings [f.name])⟩ := by
  obtain ⟨opens, opened⟩ := openMarked_outcome settings.browserMark settings.browserOpen
    ⟨f.name, f.opens,
      (f.modules.map (Module.settledImports settings [f.name])).map Module.settledTypes⟩
  refine ⟨opens, ?_⟩
  rw [File.escaped, Traced.outcome_bind (settleImports_outcome settings f),
    Traced.outcome_bind (mapModules_outcome settleTypes_outcome _), Traced.outcome_bind opened,
    Traced.outcome_bind (splitStatics_outcome settings.staticSuffix _),
    Traced.outcome_bind (addExports_outcome settings.exportsName settings.staticSuffix _),
    escapeNames_outcome]
  simp only [File.rewrite, List.map_map]
  rfl

theorem Module.layered_escaped (settings : Settings) (path : List String) {m : Module}
    (h : (Decl.module m).Every Decl.Layered) :
    (Decl.module (m.escaped settings path)).Every Decl.Layered := by
  have imports := Module.layered_settledImports settings path h
  have types := ((imports.rewrite_of_keeps Rewriting.resolveSelf_keeps_layered).rewrite_of_keeps
    (Rewriting.collapseArrays_keeps_layered nodeArrayMarker)).rewrite_of_keeps
    Rewriting.renameDates_keeps_layered
  have exports := (types.rewrite_of_keeps
    (Rewriting.splitStatics_keeps_layered settings.staticSuffix)).rewrite_of_keeps
    (Rewriting.addExports_keeps_layered settings.exportsName settings.staticSuffix)
  have escaped := exports.rewrite_of_keeps Rewriting.escapeNames_keeps_layered
  simp only [Decl.rewrite_module] at escaped
  exact escaped

theorem Module.unquoted_escaped (settings : Settings) (path : List String) (m : Module) :
    (Decl.module (m.escaped settings path)).Every Decl.Unquoted := by
  rw [Module.escaped, ← Decl.rewrite_module]
  exact Decl.every_unquoted_escapeNames _

theorem Module.rewrite_quotes {m : Module} (h : (Decl.module m).Every Decl.Layered)
    (unquoted : (Decl.module m).Every Decl.Unquoted) :
    (m.rewrite .quoteFunctions).rewrite .quoteTypes = m.quoted := by
  have whole := Decl.rewrite_quotes _ h unquoted
  rw [Decl.rewrite_module, Decl.rewrite_module, Decl.quotedEntry_module] at whole
  exact Decl.module.inj whole

/-- In a layered file, between the escaping of names and the passes behind the
quoting, a name gets one quote where it is bound by the member, the interface
or the alias it stands in. Nothing else changes. -/
theorem type_params_quoted_where_bound (settings : Settings) (f : File) (hf : f.Layered) :
    ∃ g h, (f.escaped settings).outcome = .ok g ∧
      (g.quoteFunctions >>= File.quoteTypes).outcome = .ok h ∧
      (f.prepare settings).outcome = (h.narrowed settings).outcome ∧
      h = { g with modules := g.modules.map Module.quoted } ∧
      h.rewrite .eraseNames = g.rewrite .eraseNames ∧
      ∀ name, .named name ∈ h.parts -> isTwiceQuoted name = false := by
  obtain ⟨opens, escaped⟩ := f.escaped_outcome settings
  let g : File := ⟨f.name, opens, f.modules.map (Module.escaped settings [f.name])⟩
  have layered : ∀ m ∈ g.modules, (Decl.module m).Every Decl.Layered :=
    List.forall_mem_map.mpr fun m hm =>
      Module.layered_escaped settings [f.name] (File.forall_mem_parts.mp hf m hm)
  have unquoted : ∀ m ∈ g.modules, (Decl.module m).Every Decl.Unquoted :=
    List.forall_mem_map.mpr fun m _ => m.unquoted_escaped settings [f.name]
  have quoted : (g.quoteFunctions >>= File.quoteTypes).outcome =
      .ok { g with modules := g.modules.map Module.quoted } := by
    rw [Traced.outcome_bind (quoteFunctions_outcome g), quoteTypes_outcome]
    simp only [File.rewrite, List.map_map]
    congr 2
    exact List.map_congr_left fun m hm => Module.rewrite_quotes (layered m hm) (unquoted m hm)
  refine ⟨g, _, escaped, quoted, ?_, rfl, ?_, ?_⟩
  · rw [File.prepare_eq, Traced.outcome_bind escaped]
    exact Traced.outcome_bind quoted _
  · simp only [File.rewrite, List.map_map]
    congr 1
    refine List.map_congr_left fun m _ => ?_
    have whole := Decl.rewrite_eraseNames_quotedEntry (.module m)
    rw [Decl.quotedEntry_module, Decl.rewrite_module, Decl.rewrite_module] at whole
    exact Decl.module.inj whole
  · have once : ∀ d ∈ (File.parts { g with modules := g.modules.map Module.quoted }),
        d.QuotedOnce := by
      refine File.forall_mem_parts.mpr (List.forall_mem_map.mpr fun m hm => ?_)
      have whole := (unquoted m hm).quotedEntry
      rwa [Decl.quotedEntry_module] at whole
    exact fun name hname => once _ hname name rfl

/-- A generic interface whose method binds a name of its own and one that the
interface binds too. -/
def boxFile : File where
  name := "box"
  opens := []
  modules := [⟨"", [
    .interface ⟨false, "Box", [.named "T"], [.generic (.named "Holder") [.named "T"]], [
      .property ⟨none, false, none, "value", false, .named "T"⟩,
      .function ⟨none, false, some "zip", [.named "T", .named "U"],
        [⟨"other", false, false, .named "T"⟩], .tuple [.named "T", .named "U"]⟩]⟩,
    .typeAlias ⟨"Pair", .tuple [.named "A", .named "T"], [.named "A"]⟩,
    .function ⟨none, false, some "wrap", [.named "T"], [⟨"item", false, false, .named "T"⟩],
      .generic (.named "Box") [.named "T"]⟩]⟩]

theorem boxFile_quoted_where_bound :
    boxFile.Layered ∧
      ∃ g h, (boxFile.escaped {}).outcome = .ok g ∧
        (g.quoteFunctions >>= File.quoteTypes).outcome = .ok h ∧
        (boxFile.prepare {}).outcome = (h.narrowed {}).outcome ∧
        h = { g with modules := g.modules.map Module.quoted } ∧
        h.rewrite .eraseNames = g.rewrite .eraseNames ∧
        ∀ name, .named name ∈ h.parts -> isTwiceQuoted name = false := by
  have each : ∀ d ∈ boxFile.parts,
      (d.module? = none -> ∀ c ∈ d.children, c.isTopLevel = false) ∧
        ∀ p ∈ d.typeParams, ∃ name, p = .named name := by
    simp [boxFile, File.parts, Decl.parts_eq, Decl.children, Decl.typeParams, Decl.isTopLevel,
      Decl.module?]
  have layered : boxFile.Layered := fun d hd => ⟨(each d hd).1, (each d hd).2⟩
  exact ⟨layered, type_params_quoted_where_bound {} boxFile layered⟩

/-- A generic method whose parameter has a whole module for its type. The
method binds `outer`, and an interface of that module `inner`. -/
def nestedFile (outer inner : String) : File where
  name := "nested"
  opens := []
  modules := [⟨"M", [.interface ⟨false, "J", [], [], [
    .function ⟨none, false, some "m", [.named outer], [⟨"x", false, false, .module ⟨"N", [
      .interface ⟨false, "I", [.named inner], [], [
        .property ⟨none, false, none, "p", false, .named inner⟩]⟩]⟩⟩], .named "unit"⟩]⟩]⟩]

/-- Interfaces in modules and names for type parameters are not enough: a module
below a method is quoted once for the method and once for the interface. -/
theorem nestedFile_quoted_twice :
    (∀ d ∈ (nestedFile "T" "T").parts,
      (d.module? = none -> ∀ c ∈ d.children,
        (∀ i, c ≠ .interface i) ∧ ∀ a, c ≠ .typeAlias a) ∧
      ∀ p ∈ d.typeParams, ∃ name, p = .named name) ∧
    ∃ g h, ((nestedFile "T" "T").escaped {}).outcome = .ok g ∧
      (g.quoteFunctions >>= File.quoteTypes).outcome = .ok h ∧
      ∃ name, .named name ∈ h.parts ∧ isTwiceQuoted name = true := by
  refine ⟨?_, nestedFile "T" "T", nestedFile "\x27T" "\x27\x27T", rfl, rfl,
    "\x27\x27T", ?_, by decide⟩
  · simp [nestedFile, File.parts, Decl.parts_eq, Decl.children, Decl.typeParams, Decl.module?]
  · simp [nestedFile, File.parts, Decl.parts_eq, Decl.children]

end Bindgen
