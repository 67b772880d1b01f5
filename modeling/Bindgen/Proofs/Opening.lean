import Bindgen.Proofs.Calm
import Bindgen.Proofs.Events

/-! # When the browser types are opened

A file is scanned for the names of browser types when its imports and types are
settled. Up to then such a name is lost in one way only: the type of a variable that
becomes an import turns into text. And it comes up in one way only: a result that is
the object itself is spelled out. So whether the browser types are opened can be told
from the file before any pass.
-/

namespace Bindgen

/-! ## What the scan finds -/

def Decl.isMarked (mark : String) : Decl -> Bool
  | .named name => hasMark mark name
  | _ => false

def Decl.markedName? (mark : String) : Decl -> Option String
  | .named name => if hasMark mark name then some name else none
  | _ => none

theorem Decl.isSome_markedName? (mark : String) (d : Decl) :
    (d.markedName? mark).isSome = d.isMarked mark := by
  cases d with
  | named name =>
      rw [Decl.markedName?, Decl.isMarked]
      cases hasMark mark name <;> rfl
  | _ => rfl

/-- The names in a file that start with the mark, in the order of its parts. -/
def File.markedNames (mark : String) (f : File) : List String :=
  f.parts.flatMap fun d => (d.markedName? mark).toList

theorem File.markedNames_ne_nil_iff {mark : String} {f : File} :
    f.markedNames mark ≠ [] ↔ ∃ d ∈ f.parts, d.isMarked mark = true := by
  simp [File.markedNames, List.flatMap_eq_nil_iff, ← Decl.isSome_markedName?,
    Option.isSome_iff_ne_none]

theorem events_noteMarked (mark : String) (d : Decl) :
    (noteMarked mark d).events = (d.markedName? mark).toList := by
  cases d with
  | named name =>
      rw [noteMarked, Decl.markedName?]
      cases hasMark mark name <;> rfl
  | _ => rfl

theorem Decl.rewrite_unchanged (d : Decl) : d.rewrite .unchanged = d :=
  Decl.rewrite_eq_self fun _ _ => rfl

theorem Decl.events_scan (mark : String) (d : Decl) :
    (d.transform (noteMarked mark)).events =
      d.parts.flatMap fun e => (e.markedName? mark).toList := by
  have own : ∀ e : Decl, (noteMarked mark (e.rebuild .unchanged)).events =
      (e.markedName? mark).toList := by
    intro e
    rw [Decl.rebuild_eq_self fun c _ => c.rewrite_unchanged, events_noteMarked]
  rw [Decl.events_transform (noteMarked_follows mark)]
  simp only [own]

theorem File.events_scan (mark : String) (f : File) :
    (Decl.transform (noteMarked mark) (.file f)).events = f.markedNames mark := by
  have parts : (Decl.file f).parts = f.parts ++ [.file f] := by
    rw [Decl.parts_eq, Decl.children, List.flatMap_map, File.parts]
  rw [Decl.events_scan, parts, List.flatMap_append, File.markedNames]
  exact List.append_nil _

/-- The file is kept or opens one more namespace, and then the first name that was
found is reported. -/
theorem File.openMarked_eq (mark opened : String) (f : File) :
    f.openMarked mark opened =
      match f.markedNames mark with
      | [] => .done f
      | name :: _ =>
        if f.opens.contains opened then .done f
        else ⟨[.browserType name opened], .ok { f with opens := f.opens ++ [opened] }⟩ := by
  have scan := Decl.transform_outcome (noteMarked_follows mark) (.file f)
  have found := File.events_scan mark f
  unfold File.openMarked
  generalize Decl.transform (noteMarked mark) (.file f) = scanned at scan found
  obtain ⟨names, outcome⟩ := scanned
  subst scan found
  cases f.markedNames mark <;> rfl

theorem File.outcome_openMarked (mark opened : String) (f : File) :
    (f.openMarked mark opened).outcome =
      .ok { f with opens :=
        if opened ∉ f.opens ∧ f.markedNames mark ≠ [] then f.opens ++ [opened] else f.opens } := by
  rw [File.openMarked_eq]
  obtain ⟨name, opens, modules⟩ := f
  cases File.markedNames mark ⟨name, opens, modules⟩ with
  | nil => simp
  | cons first rest => by_cases isOpen : opened ∈ opens <;> simp [isOpen]

theorem mem_opens_openMarked {mark opened : String} {f g : File}
    (h : (f.openMarked mark opened).outcome = .ok g) :
    opened ∈ g.opens ↔ opened ∈ f.opens ∨ ∃ d ∈ f.parts, d.isMarked mark = true := by
  rw [File.outcome_openMarked] at h
  obtain rfl := Except.ok.inj h
  rw [← File.markedNames_ne_nil_iff]
  dsimp only
  split
  case isTrue added => exact iff_of_true List.mem_concat_self (.inr added.2)
  case isFalse same =>
      refine ⟨.inl, fun needed => needed.elim id fun found => ?_⟩
      exact Classical.byContradiction fun closed => same ⟨closed, found⟩

/-! ## Parts before and after a rewriting -/

/-- All parts are of the second kind after the rewriting exactly if they were of
the first kind before, seen from one declaration whose children are rewritten. -/
def Rewriting.Transports (w : Rewriting) (P Q : Decl -> Prop) : Prop :=
  ∀ d, (w.apply (d.rebuild w)).Every Q ↔ P d ∧ ∀ c ∈ (d.rebuild w).children, c.Every Q

theorem Rewriting.Transports.every {w : Rewriting} {P Q : Decl -> Prop} (h : w.Transports P Q)
    (d : Decl) : (d.rewrite w).Every Q ↔ d.Every P := by
  induction d using Decl.children_induction with
  | step d ih =>
      rw [Decl.rewrite_eq_apply, h d, Decl.every_iff, Decl.children_rebuild, List.forall_mem_map]
      exact and_congr_right fun _ => forall₂_congr ih

theorem Rewriting.Transports.module {w : Rewriting} {P Q : Decl -> Prop} (h : w.Transports P Q)
    (hP : ∀ m, P (.module m)) (hQ : ∀ m, Q (.module m)) (m : Module) :
    (Decl.module (m.rewriteEntries w)).Every Q ↔ (Decl.module m).Every P := by
  rw [Decl.every_iff, Decl.every_iff, Decl.children, Decl.children, Module.rewriteEntries,
    List.forall_mem_map]
  exact and_congr (iff_of_true (hQ _) (hP _)) (forall₂_congr fun e _ => h.every e)

/-! ## Marks and the passes over types -/

section

variable (mark : String)

def Decl.NotMarked (d : Decl) : Prop :=
  d.isMarked mark = false

/-- A type with the mark, or an interface with the mark whose name a member's
result is about to spell. -/
def Decl.needsOpen : Decl -> Bool
  | .named name => hasMark mark name
  | .interface i => hasMark mark i.name && i.members.any Decl.returnsSelf
  | _ => false

theorem Decl.every_named_notMarked (name : String) :
    (Decl.named name).Every (Decl.NotMarked mark) ↔ hasMark mark name = false := by
  rw [Decl.every_iff]
  exact and_iff_left nofun

theorem renameDates_transports (dates : hasMark mark "DateTime" = hasMark mark "Date") :
    Rewriting.renameDates.Transports (Decl.NotMarked mark) (Decl.NotMarked mark) := by
  intro d
  cases d with
  | named name =>
      have renamed : hasMark mark (if name = "Date" then "DateTime" else name) =
          hasMark mark name := by
        split
        · rename_i isDate
          rw [isDate, dates]
        · rfl
      refine (Decl.every_named_notMarked mark _).trans ?_
      rw [renamed]
      exact (and_iff_left nofun).symm
  | _ => exact Decl.every_iff

theorem collapseArrays_transports {marker : String} (arrays : hasMark mark marker = false) :
    (Rewriting.collapseArrays marker).Transports (Decl.NotMarked mark) (Decl.NotMarked mark) := by
  intro d
  have same : (d.rebuild (.collapseArrays marker)).NotMarked mark ↔ d.NotMarked mark := by
    cases d <;> exact Iff.rfl
  rw [← same]
  generalize d.rebuild (.collapseArrays marker) = e
  rw [← Decl.every_iff]
  rcases e.collapseArray_cases marker with unchanged | ⟨element, rfl, collapsed⟩
  · exact iff_of_eq (congrArg _ unchanged)
  · have array : (Decl.array element).Every (Decl.NotMarked mark) ↔
        element.Every (Decl.NotMarked mark) := by
      rw [Decl.every_iff]
      simp [Decl.children, Decl.NotMarked, Decl.isMarked]
    have generic : (Decl.generic (.named marker) [element]).Every (Decl.NotMarked mark) ↔
        element.Every (Decl.NotMarked mark) := by
      rw [Decl.every_iff]
      simp [Decl.children, Decl.every_named_notMarked, arrays, Decl.NotMarked, Decl.isMarked]
    exact (iff_of_eq (congrArg _ collapsed)).trans (array.trans generic.symm)

/-- A result that is spelled out is new, and nothing else is. -/
theorem Decl.every_resultOf (type d : Decl) :
    (Decl.resultOf type d).Every (Decl.NotMarked mark) ↔
      d.Every (Decl.NotMarked mark) ∧
        (d.returnsSelf = true -> type.Every (Decl.NotMarked mark)) := by
  cases returns : d.returnsSelf with
  | false =>
      rw [Decl.resultOf_of_not_returnsSelf returns]
      simp
  | true =>
      cases d with
      | function s =>
          obtain ⟨emit, isStatic, name, typeParams, params, result⟩ := s
          cases result with
          | self =>
              have leaf : Decl.self.Every (Decl.NotMarked mark) := Decl.every_iff.mpr ⟨rfl, nofun⟩
              rw [Decl.resultOf, Decl.every_iff, Decl.every_iff]
              simp only [Decl.children, List.forall_mem_append, List.forall_mem_singleton, leaf,
                Decl.NotMarked, Decl.isMarked, true_and, and_true, forall_const]
          | _ => cases returns
      | _ => cases returns

theorem Decl.returnsSelf_rewrite_resolveSelf (d : Decl) :
    (d.rewrite .resolveSelf).returnsSelf = d.returnsSelf := by
  have isSelf : ∀ e : Decl, (e.rewrite .resolveSelf).isSelf = e.isSelf := by
    intro e
    rw [Decl.rewrite_eq_apply]
    cases e <;> rfl
  rw [Decl.rewrite_eq_apply]
  cases d with
  | function s => exact isSelf s.result
  | _ => rfl

/-- The type of an interface names the interface and holds its type parameters. -/
theorem Interface.every_selfType (i : Interface) :
    i.selfType.Every (Decl.NotMarked mark) ↔
      hasMark mark i.name = false ∧ ∀ p ∈ i.typeParams, p.Every (Decl.NotMarked mark) := by
  rw [Interface.selfType, Decl.every_iff, Decl.children, List.forall_mem_cons,
    Decl.every_named_notMarked]
  exact and_iff_right rfl

theorem Decl.every_members_resultOf (type : Decl) (members : List Decl) :
    (∀ m ∈ members, (Decl.resultOf type m).Every (Decl.NotMarked mark)) ↔
      (∀ m ∈ members, m.Every (Decl.NotMarked mark)) ∧
        (members.any Decl.returnsSelf = true -> type.Every (Decl.NotMarked mark)) := by
  simp only [Decl.every_resultOf, List.any_eq_true]
  constructor
  · intro each
    exact ⟨fun m hm => (each m hm).1, fun ⟨m, hm, returns⟩ => (each m hm).2 returns⟩
  · rintro ⟨each, spelled⟩ m hm
    exact ⟨each m hm, fun returns => spelled ⟨m, hm, returns⟩⟩

theorem resolveSelf_transports :
    Rewriting.resolveSelf.Transports (fun d => d.needsOpen mark = false) (Decl.NotMarked mark) := by
  intro d
  cases d with
  | interface i =>
      let j : Interface := { i with
        typeParams := i.typeParams.map (Decl.rewrite .resolveSelf)
        inherits := i.inherits.map (Decl.rewrite .resolveSelf)
        members := i.members.map (Decl.rewrite .resolveSelf) }
      have returns : j.members.any Decl.returnsSelf = i.members.any Decl.returnsSelf :=
        any_returnsSelf_map Decl.returnsSelf_rewrite_resolveSelf i.members
      have needs : (Decl.interface i).needsOpen mark = false ↔
          (j.members.any Decl.returnsSelf = true -> hasMark mark j.name = false) := by
        rw [returns, Decl.needsOpen, Bool.and_eq_false_iff]
        cases i.members.any Decl.returnsSelf <;> simp [j]
      have spelled : (Decl.interface { j with
          members := j.members.map (Decl.resultOf j.selfType) }).Every (Decl.NotMarked mark) ↔
            (Decl.interface i).needsOpen mark = false ∧
              ∀ c ∈ (Decl.interface j).children, c.Every (Decl.NotMarked mark) := by
        rw [needs, Decl.every_iff]
        simp only [Decl.children, List.forall_mem_append, List.forall_mem_map,
          Decl.every_members_resultOf, Interface.every_selfType]
        constructor
        · rintro ⟨-, ⟨params, inherits⟩, members, type⟩
          exact ⟨fun any => (type any).1, ⟨params, inherits⟩, members⟩
        · rintro ⟨name, ⟨params, inherits⟩, members⟩
          exact ⟨rfl, ⟨params, inherits⟩, members, fun any => ⟨name any, params⟩⟩
      exact spelled
  | _ => exact Decl.every_iff

theorem Module.every_settledTypes (arrays : hasMark mark nodeArrayMarker = false)
    (dates : hasMark mark "DateTime" = hasMark mark "Date") (m : Module) :
    (Decl.module m.settledTypes).Every (Decl.NotMarked mark) ↔
      (Decl.module m).Every fun d => d.needsOpen mark = false := by
  rw [Module.settledTypes, (renameDates_transports mark dates).module (fun _ => rfl) (fun _ => rfl),
    (collapseArrays_transports mark arrays).module (fun _ => rfl) (fun _ => rfl),
    (resolveSelf_transports mark).module (fun _ => rfl) (fun _ => rfl)]

end

/-! ## Entries that become text -/

mutual

/-- The entries of modules at all depths, the modules themselves left out. -/
def Decl.leaves : Decl -> List Decl
  | .module ⟨_, entries⟩ => Decl.allLeaves entries
  | d => [d]

def Decl.allLeaves : List Decl -> List Decl
  | [] => []
  | d :: ds => d.leaves ++ Decl.allLeaves ds

end

def File.leaves (f : File) : List Decl :=
  f.modules.flatMap fun m => (Decl.module m).leaves

def Decl.isDeclared : Decl -> Bool
  | .var v => v.declared
  | _ => false

theorem Decl.leaves_module (m : Module) :
    (Decl.module m).leaves = m.entries.flatMap Decl.leaves := by
  obtain ⟨name, entries⟩ := m
  rw [Decl.leaves]
  induction entries with
  | nil => rfl
  | cons d ds ih => rw [Decl.allLeaves, ih, List.flatMap_cons]

section

variable {P : Decl -> Prop}

theorem Decl.every_iff_leaves (hm : ∀ m, P (.module m)) (d : Decl) :
    d.Every P ↔ ∀ e ∈ d.leaves, e.Every P := by
  induction d using Decl.children_induction with
  | step d ih =>
      cases d with
      | module m =>
          rw [Decl.every_iff, Decl.leaves_module, List.forall_mem_flatMap]
          exact (and_iff_right (hm m)).trans (forall₂_congr ih)
      | _ => exact List.forall_mem_singleton.symm

/-- The type of a declared variable is gone once the variable is an import. -/
theorem Decl.every_importedAt (hm : ∀ m, P (.module m)) (hi : ∀ i, P (.imported i)) (d : Decl)
    (path : List String) :
    (d.importedAt path).Every P ↔ ∀ e ∈ d.leaves, e.isDeclared = false -> e.Every P := by
  induction d using Decl.children_induction generalizing path with
  | step d ih =>
      have leaf : ∀ i, (Decl.imported i).Every P := fun i =>
        Decl.every_iff.mpr ⟨hi i, List.forall_mem_nil _⟩
      cases d with
      | module m =>
          obtain ⟨name, entries⟩ := m
          rw [Decl.importedAt, Decl.allImportedAt_eq_map, Decl.every_iff, Decl.leaves_module,
            List.forall_mem_flatMap, Decl.children, List.forall_mem_map]
          exact (and_iff_right (hm _)).trans (forall₂_congr fun e he => ih e he _)
      | imported i =>
          exact iff_of_true (leaf _) (List.forall_mem_singleton.mpr fun _ => leaf i)
      | var v =>
          obtain ⟨declared, name, type⟩ := v
          cases declared with
          | true => exact iff_of_true (leaf _) (List.forall_mem_singleton.mpr (by rintro ⟨⟩))
          | false => exact ⟨fun every => List.forall_mem_singleton.mpr fun _ => every,
              fun all => all _ (List.mem_singleton.mpr rfl) rfl⟩
      | _ => exact ⟨fun every => List.forall_mem_singleton.mpr fun _ => every,
          fun all => all _ (List.mem_singleton.mpr rfl) rfl⟩

/-- The entry is not turned into text when imports are settled. -/
def Settings.keepsEntry (settings : Settings) (e : Decl) : Bool :=
  !(settings.convertImports && e.isDeclared)

theorem Module.every_settledImports (hm : ∀ m, P (.module m)) (hi : ∀ i, P (.imported i))
    (settings : Settings) (path : List String) (m : Module) :
    (Decl.module (m.settledImports settings path)).Every P ↔
      ∀ e ∈ (Decl.module m).leaves, settings.keepsEntry e = true -> e.Every P := by
  cases converts : settings.convertImports with
  | true =>
      have imported : Decl.module (m.importedAt path) = (Decl.module m).importedAt path := by
        cases m
        rw [Decl.importedAt, Decl.allImportedAt_eq_map, Module.importedAt]
      simp [Module.settledImports, Settings.keepsEntry, converts, imported,
        Decl.every_importedAt hm hi]
  | false =>
      simp [Module.settledImports, Settings.keepsEntry, converts, ← Decl.every_iff_leaves hm]

end

/-- A name with the mark is found exactly if it stands in an entry that is kept, or
is the name of an interface that is spelled out there. -/
theorem File.marked_settled_iff {mark : String} (arrays : hasMark mark nodeArrayMarker = false)
    (dates : hasMark mark "DateTime" = hasMark mark "Date") (settings : Settings) (f : File) :
    (∃ d ∈ (f.settled settings).parts, d.isMarked mark = true) ↔
      ∃ e ∈ f.leaves, settings.keepsEntry e = true ∧ ∃ d ∈ e.parts, d.needsOpen mark = true := by
  have none : (∀ d ∈ (f.settled settings).parts, d.isMarked mark = false) ↔
      ∀ e ∈ f.leaves, settings.keepsEntry e = true -> e.Every fun d => d.needsOpen mark = false := by
    rw [File.forall_mem_parts, File.leaves, List.forall_mem_flatMap, File.settled,
      List.forall_mem_map, List.forall_mem_map]
    refine forall₂_congr fun m _ => ?_
    refine (Module.every_settledTypes mark arrays dates _).trans ?_
    exact Module.every_settledImports (fun _ => rfl) (fun _ => rfl) settings [f.name] m
  simpa [Decl.Every] using not_congr none

theorem File.mem_leaves_of_mem_parts {f : File} {d : Decl} (hd : d ∈ f.parts)
    (h : d.module? = none) : ∃ e ∈ f.leaves, d ∈ e.parts := by
  obtain ⟨m, hm, hd⟩ := List.mem_flatMap.mp hd
  have notModule : ∀ n, Decl.module n ≠ d := by
    rintro n rfl
    cases h
  apply Classical.byContradiction
  intro none
  have every : (Decl.module m).Every (· ≠ d) := by
    rw [Decl.every_iff_leaves notModule]
    rintro e he _ hx rfl
    exact none ⟨e, List.mem_flatMap.mpr ⟨m, hm, he⟩, hx⟩
  exact every d hd rfl

/-- The browser types are opened exactly if they were open or an entry needs them:
by naming one, or by a member of an interface with such a name whose result is the
object itself. Variables that become imports do not count. Without imports every
name in the file counts. -/
theorem prepare_opens_browser_iff (settings : Settings) (html : settings.browserMark = "HTML")
    (f : File) :
    ∃ g, (f.prepare settings).outcome = .ok g ∧
      (settings.browserOpen ∈ g.opens ↔ settings.browserOpen ∈ f.opens ∨
        ∃ e ∈ f.leaves, settings.keepsEntry e = true ∧
          ∃ d ∈ e.parts, d.needsOpen "HTML" = true) ∧
      (settings.convertImports = false -> (∃ d ∈ f.parts, d.isMarked "HTML" = true) ->
        settings.browserOpen ∈ g.opens) := by
  obtain ⟨opens, opened⟩ := openMarked_outcome settings.browserMark settings.browserOpen
    (f.settled settings)
  have found := mem_opens_openMarked opened
  rw [html, File.marked_settled_iff (by decide) (by decide)] at found
  refine ⟨_, prepare_outcome_of_opened opened, found, ?_⟩
  rintro keeps ⟨d, hd, marked⟩
  have notModule : d.module? = none := by
    cases d with
    | module m => cases marked
    | _ => rfl
  have needs : d.needsOpen "HTML" = true := by
    cases d with
    | named name => exact marked
    | _ => cases marked
  obtain ⟨e, he, hde⟩ := File.mem_leaves_of_mem_parts hd notModule
  exact found.mpr (.inr ⟨e, he, by simp [Settings.keepsEntry, keeps], d, hde, needs⟩)

def pageFile (more : List Decl) : File :=
  ⟨"Page", [], [⟨"", .var ⟨true, "root", .named "HTMLElement"⟩ :: more⟩]⟩

def panel : Decl :=
  .interface ⟨false, "HTMLPanel", [], [], [.function ⟨none, false, some "show", [], [], .self⟩]⟩

theorem pageFile_opens_browser :
    ∃ g, ((pageFile [panel]).prepare { convertImports := true }).outcome = .ok g ∧
      "Fable.Import.Browser" ∈ g.opens := by
  obtain ⟨g, prepared, opens, -⟩ :=
    prepare_opens_browser_iff { convertImports := true } rfl (pageFile [panel])
  refine ⟨g, prepared, opens.mpr (.inr ⟨panel, by decide +kernel, rfl, ?_⟩)⟩
  exact ⟨panel, by rw [Decl.parts_eq]; simp, by decide +kernel⟩

/-- The type of the root is text when browser types are looked for. -/
theorem pageFile_misses_browser :
    (∃ d ∈ (pageFile []).parts, d.isMarked "HTML" = true) ∧
      ∃ g, ((pageFile []).prepare { convertImports := true }).outcome = .ok g ∧
        "Fable.Import.Browser" ∉ g.opens := by
  have named : (pageFile []).parts.any (Decl.isMarked "HTML") = true := by decide +kernel
  have value : ((pageFile []).prepare { convertImports := true }).outcome.toOption.map File.opens =
      some [] := by
    decide +kernel
  obtain ⟨opens, prepared⟩ := prepare_outcome { convertImports := true } (pageFile [])
  rw [prepared] at value
  have empty : opens = [] := Option.some.inj value
  exact ⟨List.any_eq_true.mp named, _, prepared, by simp [empty]⟩

end Bindgen
