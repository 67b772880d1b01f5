import Bindgen.Print.Module
import Bindgen.Proofs.Heads
import Bindgen.Proofs.Merge.Basic

/-! # Printable files

A file is printable when the functions in its modules and in their interfaces
have names, and all rest parameters have array types. Every pass keeps a file
printable, in any order and any number, and a printable file is printed.

A rewriting keeps a file printable if arrays stay arrays, parameters keep their
types, and what it does to a member or an entry on its own does no harm; this
is checked once for each pass.
-/

namespace Bindgen

/-- The function has a name, and its rest parameters take arrays. -/
structure Signature.Printable (s : Signature) : Prop where
  named : s.name.isSome
  rest : ∀ p ∈ s.params, p.isRest = true -> ∃ element, p.type = .array element

/-- A module that is reached from the file through entries of modules. -/
inductive File.Reaches (f : File) : Module -> Prop
  | top {m : Module} : m ∈ f.modules -> f.Reaches m
  | nested {m inner : Module} : f.Reaches m -> .module inner ∈ m.entries -> f.Reaches inner

/-- In every module that is reached, functions among the entries and among the
members of interfaces are printable. -/
def File.Printable (f : File) : Prop :=
  ∀ m, f.Reaches m ->
    (∀ s, .function s ∈ m.entries -> s.Printable) ∧
    (∀ i, .interface i ∈ m.entries -> ∀ s, .function s ∈ i.members -> s.Printable)

/-! ## The same by recursion on entries -/

def Decl.PrintableMember : Decl -> Prop
  | .function s => s.Printable
  | _ => True

mutual

def Decl.PrintableEntry : Decl -> Prop
  | .function s => s.Printable
  | .interface i => ∀ m ∈ i.members, m.PrintableMember
  | .module ⟨_, entries⟩ => Decl.PrintableEntries entries
  | _ => True

def Decl.PrintableEntries : List Decl -> Prop
  | [] => True
  | d :: ds => d.PrintableEntry ∧ Decl.PrintableEntries ds

end

def Module.Printable (m : Module) : Prop :=
  ∀ d ∈ m.entries, d.PrintableEntry

theorem Decl.printableEntries_iff (ds : List Decl) :
    Decl.PrintableEntries ds ↔ ∀ d ∈ ds, d.PrintableEntry := by
  induction ds with
  | nil => simp [Decl.PrintableEntries]
  | cons d ds ih => simp [Decl.PrintableEntries, ih]

theorem Decl.printableEntry_module (m : Module) :
    (Decl.module m).PrintableEntry ↔ m.Printable := by
  cases m
  rw [Decl.PrintableEntry, Decl.printableEntries_iff, Module.Printable]

theorem Decl.printableEntry_function (s : Signature) :
    (Decl.function s).PrintableEntry ↔ s.Printable := by
  rw [Decl.PrintableEntry]

theorem Decl.printableEntry_interface (i : Interface) :
    (Decl.interface i).PrintableEntry ↔ ∀ m ∈ i.members, m.PrintableMember := by
  rw [Decl.PrintableEntry]

theorem Decl.PrintableEntry.map_members {i j : Interface} {g : Decl -> Decl}
    (h : (Decl.interface i).PrintableEntry) (hj : j.members = i.members.map g)
    (hg : ∀ m, m.PrintableMember -> (g m).PrintableMember) :
    (Decl.interface j).PrintableEntry := by
  rw [Decl.printableEntry_interface] at h ⊢
  intro m hm
  rw [hj] at hm
  obtain ⟨member, hmember, rfl⟩ := List.mem_map.mp hm
  exact hg member (h member hmember)

/-- Types and other things that are neither functions nor hold any. -/
theorem Decl.printable_of_head_eq_other {d : Decl} (h : d.head = .other) :
    d.PrintableMember ∧ d.PrintableEntry := by
  cases d with
  | function s => cases h
  | interface i => cases h
  | module m => cases h
  | _ => simp [Decl.PrintableMember, Decl.PrintableEntry]

theorem Decl.PrintableEntry.member {d : Decl} (h : d.PrintableEntry) : d.PrintableMember := by
  cases d with
  | function s => exact (Decl.printableEntry_function s).mp h
  | _ => trivial

mutual

theorem File.Printable.entry {f : File} (hf : f.Printable) {m : Module} (reached : f.Reaches m)
    (d : Decl) (hd : d ∈ m.entries) : d.PrintableEntry := by
  cases d with
  | function s => exact (Decl.printableEntry_function s).mpr ((hf m reached).1 s hd)
  | interface i =>
      rw [Decl.printableEntry_interface]
      intro member hmember
      cases member with
      | function s => exact (hf m reached).2 i hd s hmember
      | _ => trivial
  | module inner =>
      obtain ⟨name, entries⟩ := inner
      rw [Decl.PrintableEntry]
      exact hf.entries (.nested reached hd) entries fun _ h => h
  | _ => simp [Decl.PrintableEntry]

theorem File.Printable.entries {f : File} (hf : f.Printable) {m : Module}
    (reached : f.Reaches m) (ds : List Decl) (hds : ∀ d ∈ ds, d ∈ m.entries) :
    Decl.PrintableEntries ds := by
  cases ds with
  | nil => simp [Decl.PrintableEntries]
  | cons d ds =>
      rw [Decl.PrintableEntries]
      exact ⟨hf.entry reached d (hds d List.mem_cons_self),
        hf.entries reached ds fun e he => hds e (List.mem_cons_of_mem d he)⟩

end

/-- Being printable can be read off the entries, module by module. -/
theorem File.printable_iff (f : File) :
    f.Printable ↔ ∀ m ∈ f.modules, m.Printable := by
  constructor
  · intro hf m hm
    rw [Module.Printable, ← Decl.printableEntries_iff]
    exact hf.entries (.top hm) m.entries fun _ h => h
  · -- What holds of the entries of a module holds inside the modules among them.
    intro hf m reached
    have entries : ∀ d ∈ m.entries, d.PrintableEntry := by
      induction reached with
      | top hm => exact hf _ hm
      | nested _ hmem ih => exact (Decl.printableEntry_module _).mp (ih _ hmem)
    refine ⟨fun s hs => (entries _ hs).member, ?_⟩
    intro i hi s hs
    exact (Decl.printableEntry_interface i).mp (entries _ hi) _ hs

/-- A file is printable if each of its modules is; its opened namespaces do not
matter. -/
theorem File.Printable.mapModules {g : Module -> Module} {f : File} (h : f.Printable)
    (hg : ∀ m, m.Printable -> (g m).Printable) (opens : List String) :
    File.Printable ⟨f.name, opens, f.modules.map g⟩ := by
  rw [File.printable_iff] at h ⊢
  intro m hm
  obtain ⟨before, hbefore, rfl⟩ := List.mem_map.mp hm
  exact hg before (h before hbefore)

/-! ## Rewritings that keep files printable -/

structure Rewriting.KeepsPrintable (w : Rewriting) : Prop where
  array : ∀ element, w.apply (.array element) = .array element
  param : ∀ p, (w.onParam p).isRest = p.isRest ∧ (w.onParam p).type = p.type
  member : ∀ d, d.PrintableMember -> (w.apply d).PrintableMember
  entry : ∀ d, d.PrintableEntry -> (w.apply d).PrintableEntry

section

variable {w : Rewriting}

theorem Signature.Printable.rebuild (hw : w.KeepsPrintable) {s : Signature} (hs : s.Printable)
    (typeParams : List Decl) (result : Decl) :
    Signature.Printable
      { s with typeParams, params := s.params.map (Param.rewrite w), result } := by
  refine ⟨hs.named, ?_⟩
  intro p hp isRest
  obtain ⟨q, hq, rfl⟩ := List.mem_map.mp hp
  obtain ⟨sameRest, sameType⟩ := hw.param { q with type := q.type.rewrite w }
  obtain ⟨element, isArray⟩ := hs.rest q hq (sameRest.symm.trans isRest)
  refine ⟨element.rewrite w, ?_⟩
  rw [Param.rewrite, sameType]
  rw [isArray, Decl.rewrite_eq_apply, Decl.rebuild, hw.array]

theorem Decl.PrintableMember.rewrite (hw : w.KeepsPrintable) {d : Decl} (h : d.PrintableMember) :
    (d.rewrite w).PrintableMember := by
  rw [Decl.rewrite_eq_apply]
  apply hw.member
  cases d with
  | function s => exact Signature.Printable.rebuild hw h _ _
  | _ => trivial

mutual

theorem Decl.PrintableEntry.rewrite (hw : w.KeepsPrintable) (d : Decl) (h : d.PrintableEntry) :
    (d.rewrite w).PrintableEntry := by
  rw [Decl.rewrite_eq_apply]
  apply hw.entry
  cases d with
  | function s =>
      rw [Decl.printableEntry_function] at h
      rw [Decl.rebuild, Decl.printableEntry_function]
      exact h.rebuild hw _ _
  | interface i => exact h.map_members rfl fun _ hm => hm.rewrite hw
  | module m =>
      obtain ⟨name, entries⟩ := m
      rw [Decl.PrintableEntry] at h
      rw [Decl.rebuild, Decl.PrintableEntry]
      exact Decl.PrintableEntries.rewrite hw entries h
  | _ => simp [Decl.rebuild, Decl.PrintableEntry]

theorem Decl.PrintableEntries.rewrite (hw : w.KeepsPrintable) (ds : List Decl)
    (h : Decl.PrintableEntries ds) : Decl.PrintableEntries (ds.map (Decl.rewrite w)) := by
  cases ds with
  | nil => exact h
  | cons d ds =>
      rw [Decl.PrintableEntries] at h
      rw [List.map_cons, Decl.PrintableEntries]
      exact ⟨Decl.PrintableEntry.rewrite hw d h.1, Decl.PrintableEntries.rewrite hw ds h.2⟩

end

theorem Module.Printable.rewriteEntries (hw : w.KeepsPrintable) {m : Module} (h : m.Printable) :
    (m.rewriteEntries w).Printable := by
  intro d hd
  obtain ⟨e, he, rfl⟩ := List.mem_map.mp hd
  exact (h e he).rewrite hw

theorem Module.Printable.rewrite (hw : w.KeepsPrintable) {m : Module} (h : m.Printable) :
    (m.rewrite w).Printable := by
  have whole := Decl.PrintableEntry.rewrite hw (.module m) ((Decl.printableEntry_module m).mpr h)
  rw [Decl.rewrite_module, Decl.printableEntry_module] at whole
  exact whole

theorem File.Printable.rewrite (hw : w.KeepsPrintable) {f : File} (h : f.Printable) :
    (f.rewrite w).Printable :=
  h.mapModules (fun _ => Module.Printable.rewrite hw) f.opens

theorem Rewriting.ofTypes_keepsPrintable {f : Decl -> Decl} {hp : ∀ p, f (.param p) = .param p}
    {hm : ∀ m, f (.module m) = .module m} (array : ∀ element, f (.array element) = .array element)
    (member : ∀ d, d.PrintableMember -> (f d).PrintableMember)
    (entry : ∀ d, d.PrintableEntry -> (f d).PrintableEntry) :
    (Rewriting.ofTypes f hp hm).KeepsPrintable where
  array := array
  param _ := ⟨rfl, rfl⟩
  member := member
  entry := entry

end

/-- A function that puts only types in the place of something else. -/
theorem Rewriting.ofTypes_keepsPrintable_of_other {f : Decl -> Decl}
    {hp : ∀ p, f (.param p) = .param p} {hm : ∀ m, f (.module m) = .module m}
    (array : ∀ element, f (.array element) = .array element)
    (types : ∀ d, f d = d ∨ (f d).head = .other) :
    (Rewriting.ofTypes f hp hm).KeepsPrintable := by
  refine ofTypes_keepsPrintable array ?_ ?_
  · intro d h
    rcases types d with same | other
    · rw [same]
      exact h
    · exact (Decl.printable_of_head_eq_other other).1
  · intro d h
    rcases types d with same | other
    · rw [same]
      exact h
    · exact (Decl.printable_of_head_eq_other other).2

/-! ## The passes over types -/

theorem Decl.PrintableMember.resultOf (type : Decl) {d : Decl} (h : d.PrintableMember) :
    (Decl.resultOf type d).PrintableMember := by
  cases d with
  | function s =>
      simp only [Decl.resultOf]
      split
      · exact ⟨h.named, h.rest⟩
      · exact h
  | _ => exact h

namespace Rewriting

theorem resolveSelf_keepsPrintable : resolveSelf.KeepsPrintable := by
  refine ofTypes_keepsPrintable (fun _ => rfl) ?_ ?_
  · intro d h
    cases d with
    | interface i => trivial
    | _ => exact h
  · intro d h
    cases d with
    | interface i => exact h.map_members rfl fun _ hm => hm.resultOf i.selfType
    | _ => exact h

theorem collapseArrays_keepsPrintable (marker : String) :
    (collapseArrays marker).KeepsPrintable := by
  refine ofTypes_keepsPrintable_of_other (fun _ => rfl) ?_
  intro d
  unfold Decl.collapseArray
  split
  · split
    · exact .inr rfl
    · exact .inl rfl
  · exact .inl rfl

theorem renameDates_keepsPrintable : renameDates.KeepsPrintable := by
  refine ofTypes_keepsPrintable_of_other (fun _ => rfl) ?_
  intro d
  cases d with
  | named name => exact .inr rfl
  | _ => exact .inl rfl

theorem capUnions_keepsPrintable (limit : Int) : (capUnions limit).KeepsPrintable := by
  refine ofTypes_keepsPrintable_of_other (fun _ => rfl) ?_
  intro d
  cases d with
  | union optional alternatives =>
      simp only [Decl.cappedUnion]
      split
      · exact .inr rfl
      · exact .inr rfl
  | _ => exact .inl rfl

/-! ## The passes over names -/

theorem escapeNames_keepsPrintable : escapeNames.KeepsPrintable where
  array _ := rfl
  param _ := ⟨rfl, rfl⟩
  member d h := by
    cases d with
    | function s => exact ⟨by simpa using h.named, h.rest⟩
    | _ => exact h
  entry d h := by
    cases d with
    | function s =>
        have hs := (Decl.printableEntry_function s).mp h
        exact (Decl.printableEntry_function _).mpr ⟨by simpa using hs.named, hs.rest⟩
    | interface i =>
        exact (Decl.printableEntry_interface _).mpr ((Decl.printableEntry_interface i).mp h)
    | module m => exact (Decl.printableEntry_module _).mpr ((Decl.printableEntry_module m).mp h)
    | _ => simp [escapeNames, Decl.escapeName, Decl.PrintableEntry]

theorem quoteNames_keepsPrintable (bound : List String) : (quoteNames bound).KeepsPrintable := by
  refine ofTypes_keepsPrintable_of_other (fun _ => rfl) ?_
  intro d
  cases d with
  | named name => exact .inr rfl
  | _ => exact .inl rfl

end Rewriting

theorem Decl.PrintableMember.quoted (typeParams : List Decl) {d : Decl} (h : d.PrintableMember) :
    (Decl.quoted typeParams d).PrintableMember := by
  unfold Decl.quoted
  split
  · exact h
  · exact h.rewrite (Rewriting.quoteNames_keepsPrintable _)

theorem Decl.PrintableEntry.quoted (typeParams : List Decl) {d : Decl} (h : d.PrintableEntry) :
    (Decl.quoted typeParams d).PrintableEntry := by
  unfold Decl.quoted
  split
  · exact h
  · exact h.rewrite (Rewriting.quoteNames_keepsPrintable _)

theorem Decl.PrintableMember.quotedFunction {d : Decl} (h : d.PrintableMember) :
    d.quotedFunction.PrintableMember := by
  cases d with
  | function s => exact h.quoted s.typeParams
  | _ => exact h

theorem Signature.Printable.specialize {s : Signature} (h : s.Printable) :
    s.specialize.Printable := by
  unfold Signature.specialize
  split
  case h_1 name _ _ _ text params _ _ isParams =>
      refine ⟨rfl, ?_⟩
      intro p hp
      apply h.rest p
      rw [isParams]
      exact List.mem_cons_of_mem _ hp
  case h_2 => exact h

namespace Rewriting

theorem quoteFunctions_keepsPrintable : quoteFunctions.KeepsPrintable := by
  refine ofTypes_keepsPrintable (fun _ => rfl) ?_ ?_
  · intro d h
    cases d with
    | interface i => trivial
    | _ => exact h
  · intro d h
    cases d with
    | interface i => exact h.map_members rfl fun _ hm => hm.quotedFunction
    | _ => exact h

theorem quoteTypes_keepsPrintable : quoteTypes.KeepsPrintable := by
  refine ofTypes_keepsPrintable (fun _ => rfl) ?_ ?_
  · intro d h
    cases d with
    | interface i => exact h.quoted i.typeParams
    | typeAlias a => exact h.quoted a.typeParams
    | _ => exact h
  · intro d h
    cases d with
    | interface i => exact h.quoted i.typeParams
    | typeAlias a => exact h.quoted a.typeParams
    | _ => exact h

theorem specializeOverloads_keepsPrintable : specializeOverloads.KeepsPrintable := by
  refine ofTypes_keepsPrintable (fun _ => rfl) ?_ ?_
  · intro d h
    cases d with
    | function s => exact Signature.Printable.specialize h
    | _ => exact h
  · intro d h
    cases d with
    | function s =>
        rw [Decl.printableEntry_function] at h
        rw [Decl.specialize, Decl.printableEntry_function]
        exact h.specialize
    | _ => exact h

end Rewriting

/-! ## The passes over entries -/

theorem Decl.PrintableEntry.splitStatic (suffix : String) {d : Decl} (h : d.PrintableEntry) :
    ∀ e ∈ Decl.splitStatic suffix d, e.PrintableEntry := by
  intro e he
  cases d with
  | interface i =>
      have members := (Decl.printableEntry_interface i).mp h
      simp only [Decl.splitStatic] at he
      split at he
      · rw [List.mem_singleton.mp he]
        exact h
      · -- Both halves have their members from the interface that was split.
        have half : ∀ j : Interface, (∀ m ∈ j.members, m ∈ i.members) ->
            (Decl.interface j).PrintableEntry := fun j from_i =>
          (Decl.printableEntry_interface j).mpr fun m hm => members m (from_i m hm)
        rcases List.mem_cons.mp he with rfl | he
        · exact half _ fun m hm => (List.mem_filter.mp hm).1
        · rw [List.mem_singleton.mp he]
          exact half _ fun m hm => (List.mem_filter.mp hm).1
  | _ =>
      rw [List.mem_singleton.mp he]
      exact h

theorem Decl.PrintableEntry.exported {suffix : String} {d e : Decl} (h : d.PrintableEntry)
    (he : d.exported? suffix = some e) : e.PrintableMember := by
  cases d with
  | function s =>
      cases he
      exact h.member
  | interface i =>
      simp only [Decl.exported?] at he
      split at he
      · cases he
        trivial
      · cases he
  | var v =>
      cases he
      trivial
  | _ => cases he

theorem printable_withExports (name suffix : String) {ds : List Decl}
    (h : ∀ d ∈ ds, d.PrintableEntry) : ∀ d ∈ withExports name suffix ds, d.PrintableEntry := by
  intro d hd
  unfold withExports at hd
  split at hd
  · exact h d hd
  · rcases List.mem_cons.mp hd with rfl | hd
    · rw [Decl.printableEntry_interface]
      intro m hm
      obtain ⟨e, he, exported⟩ := List.mem_filterMap.mp hm
      exact (h e he).exported exported
    · exact h d hd

namespace Rewriting

theorem splitStatics_keepsPrintable (suffix : String) : (splitStatics suffix).KeepsPrintable where
  array _ := rfl
  param _ := ⟨rfl, rfl⟩
  member d h := by
    cases d with
    | module m => trivial
    | _ => exact h
  entry d h := by
    cases d with
    | module m =>
        rw [Decl.printableEntry_module] at h
        refine (Decl.printableEntry_module _).mpr ?_
        intro e he
        obtain ⟨d, hd, he⟩ := List.mem_flatMap.mp he
        exact (h d hd).splitStatic suffix e he
    | _ => exact h

theorem addExports_keepsPrintable (name suffix : String) :
    (addExports name suffix).KeepsPrintable where
  array _ := rfl
  param _ := ⟨rfl, rfl⟩
  member d h := by
    cases d with
    | module m => trivial
    | _ => exact h
  entry d h := by
    cases d with
    | module m =>
        rw [Decl.printableEntry_module] at h
        exact (Decl.printableEntry_module _).mpr (printable_withExports name suffix h)
    | _ => exact h

end Rewriting

mutual

theorem Decl.PrintableEntry.importedAt (path : List String) (d : Decl) (h : d.PrintableEntry) :
    (d.importedAt path).PrintableEntry := by
  cases d with
  | module m =>
      obtain ⟨name, entries⟩ := m
      rw [Decl.PrintableEntry] at h
      rw [Decl.importedAt, Decl.PrintableEntry]
      exact Decl.PrintableEntries.importedAt (pathInside path name) entries h
  | var v =>
      obtain ⟨declared, name, type⟩ := v
      rw [Decl.importedAt]
      split <;> simp [Decl.PrintableEntry]
  | imported i => simp [Decl.importedAt, Decl.PrintableEntry]
  | _ => exact h

theorem Decl.PrintableEntries.importedAt (path : List String) (ds : List Decl)
    (h : Decl.PrintableEntries ds) : Decl.PrintableEntries (Decl.allImportedAt path ds) := by
  cases ds with
  | nil => simpa [Decl.allImportedAt] using h
  | cons d ds =>
      rw [Decl.PrintableEntries] at h
      rw [Decl.allImportedAt, Decl.PrintableEntries]
      exact ⟨Decl.PrintableEntry.importedAt path d h.1,
        Decl.PrintableEntries.importedAt path ds h.2⟩

end

theorem Module.Printable.importedAt (path : List String) {m : Module} (h : m.Printable) :
    (m.importedAt path).Printable := by
  intro d hd
  obtain ⟨e, he, rfl⟩ := List.mem_map.mp hd
  exact Decl.PrintableEntry.importedAt _ e (h e he)

/-! ## Merging -/

theorem printable_mergeInterfaces {ds : List Decl} (h : ∀ d ∈ ds, d.PrintableEntry) :
    ∀ d ∈ mergeInterfaces ds, d.PrintableEntry := by
  rw [mergeInterfaces_eq_gather]
  refine Folding.forall_mem_gather ?_ h
  intro first later hfirst hlater
  cases first with
  | interface i =>
      cases later with
      | interface j =>
          rw [Decl.printableEntry_interface] at hfirst hlater
          refine (Decl.printableEntry_interface _).mpr ?_
          intro m hm
          rcases List.mem_append.mp hm with hm | hm
          · exact hfirst m hm
          · exact hlater m hm
      | _ => exact hfirst
  | _ => exact hfirst

theorem Module.Printable.merge {m : Module} (h : m.Printable) : m.merge.Printable :=
  printable_mergeInterfaces h

/-- Modules stay printable when their entries are combined in a way that keeps
entries printable. -/
theorem printable_gather_modules {combine : List Decl -> List Decl}
    (hc : ∀ ds, (∀ d ∈ ds, d.PrintableEntry) -> ∀ d ∈ combine ds, d.PrintableEntry)
    {ds : List Decl} (h : ∀ d ∈ ds, d.PrintableEntry) :
    ∀ d ∈ (moduleFolding combine).gather (ds.map (Decl.mapEntries combine)),
      d.PrintableEntry := by
  refine Folding.forall_mem_gather ?_ ?_
  · intro first later hfirst hlater
    cases first with
    | module m =>
        cases later with
        | module m' =>
            rw [Decl.printableEntry_module] at hfirst hlater
            refine (Decl.printableEntry_module _).mpr (hc _ ?_)
            intro d hd
            rcases List.mem_append.mp hd with hd | hd
            · exact hfirst d hd
            · exact hlater d hd
        | _ => exact hfirst
    | _ => exact hfirst
  · intro d hd
    obtain ⟨e, he, rfl⟩ := List.mem_map.mp hd
    cases e with
    | module m =>
        exact (Decl.printableEntry_module _).mpr
          (hc m.entries ((Decl.printableEntry_module m).mp (h _ he)))
    | _ => exact h _ he

theorem printable_mergeModulesTo (depth : Nat) {ds : List Decl}
    (h : ∀ d ∈ ds, d.PrintableEntry) : ∀ d ∈ mergeModulesTo depth ds, d.PrintableEntry := by
  induction depth generalizing ds with
  | zero => exact h
  | succ depth ih =>
      rw [mergeModulesTo_succ]
      exact printable_gather_modules (fun es hes => printable_mergeInterfaces (ih hes)) h

theorem File.Printable.merge {f : File} (h : f.Printable) : f.merge.Printable := by
  rw [File.printable_iff] at h ⊢
  have entries : ∀ d ∈ f.modules.map Decl.module, d.PrintableEntry := by
    intro d hd
    obtain ⟨m, hm, rfl⟩ := List.mem_map.mp hd
    exact (Decl.printableEntry_module m).mpr (h m hm)
  intro m hm
  obtain ⟨d, hd, isModule⟩ := List.mem_filterMap.mp hm
  have hd := printable_mergeModulesTo _ entries d hd
  cases d with
  | module m' =>
      have same : m' = m := Option.some.inj isModule
      rw [← same]
      exact (Decl.printableEntry_module m').mp hd
  | _ => cases isModule

/-! ## Runs of passes -/

section

variable {m : Module}

theorem Module.Printable.settledTypes (h : m.Printable) : m.settledTypes.Printable :=
  ((h.rewriteEntries Rewriting.resolveSelf_keepsPrintable).rewriteEntries
    (Rewriting.collapseArrays_keepsPrintable _)).rewriteEntries
    Rewriting.renameDates_keepsPrintable

theorem Module.Printable.settledImports (settings : Settings) (path : List String)
    (h : m.Printable) : (m.settledImports settings path).Printable := by
  unfold Module.settledImports
  split
  · exact h.importedAt path
  · exact h

theorem Module.Printable.finished (settings : Settings) (h : m.Printable) :
    (m.finished settings).Printable := by
  have split := h.rewrite (Rewriting.splitStatics_keepsPrintable settings.staticSuffix)
  have exports := split.rewrite
    (Rewriting.addExports_keepsPrintable settings.exportsName settings.staticSuffix)
  have escaped := exports.rewrite Rewriting.escapeNames_keepsPrintable
  have quoted := (escaped.rewrite Rewriting.quoteFunctions_keepsPrintable).rewrite
    Rewriting.quoteTypes_keepsPrintable
  exact (quoted.rewrite Rewriting.specializeOverloads_keepsPrintable).rewrite
    (Rewriting.capUnions_keepsPrintable settings.maxUnionArity)

theorem Module.Printable.prepared (settings : Settings) (path : List String) (h : m.Printable) :
    (m.prepared settings path).Printable :=
  (h.settledImports settings path).settledTypes.finished settings

end

/-- A pass does not fail, and it keeps a printable file printable. -/
theorem Pass.apply_keepsPrintable (f : File) (p : Pass) :
    ∃ g, (Pass.apply f p).outcome = .ok g ∧ (f.Printable -> g.Printable) := by
  cases p with
  | resolveSelf =>
      exact ⟨_, mapModules_outcome resolveSelf_outcome f, fun h =>
        h.mapModules (fun _ hm => hm.rewriteEntries Rewriting.resolveSelf_keepsPrintable) _⟩
  | collapseArrays marker =>
      exact ⟨_, mapModules_outcome (collapseArrays_outcome marker) f, fun h =>
        h.mapModules (fun _ hm => hm.rewriteEntries (Rewriting.collapseArrays_keepsPrintable _)) _⟩
  | renameDates =>
      exact ⟨_, mapModules_outcome renameDates_outcome f, fun h =>
        h.mapModules (fun _ hm => hm.rewriteEntries Rewriting.renameDates_keepsPrintable) _⟩
  | convertImports path =>
      exact ⟨_, mapModules_outcome (Module.convertImports_outcome path) f, fun h =>
        h.mapModules (fun _ hm => hm.importedAt path) _⟩
  | mergeInterfaces =>
      exact ⟨_, rfl, fun h => h.mapModules (fun _ => Module.Printable.merge) _⟩
  | mergeModules => exact ⟨_, rfl, File.Printable.merge⟩
  | openMarked mark opened =>
      obtain ⟨opens, h⟩ := openMarked_outcome mark opened f
      exact ⟨_, h, fun hf => (File.printable_iff _).mpr ((File.printable_iff f).mp hf)⟩
  | splitStatics suffix =>
      exact ⟨_, splitStatics_outcome suffix f,
        File.Printable.rewrite (Rewriting.splitStatics_keepsPrintable suffix)⟩
  | addExports name suffix =>
      exact ⟨_, addExports_outcome name suffix f,
        File.Printable.rewrite (Rewriting.addExports_keepsPrintable name suffix)⟩
  | escapeNames =>
      exact ⟨_, escapeNames_outcome f, File.Printable.rewrite Rewriting.escapeNames_keepsPrintable⟩
  | quoteFunctions =>
      exact ⟨_, quoteFunctions_outcome f,
        File.Printable.rewrite Rewriting.quoteFunctions_keepsPrintable⟩
  | quoteTypes =>
      exact ⟨_, quoteTypes_outcome f, File.Printable.rewrite Rewriting.quoteTypes_keepsPrintable⟩
  | specializeOverloads =>
      exact ⟨_, specializeOverloads_outcome f,
        File.Printable.rewrite Rewriting.specializeOverloads_keepsPrintable⟩
  | capUnions limit =>
      exact ⟨_, capUnions_outcome limit f,
        File.Printable.rewrite (Rewriting.capUnions_keepsPrintable limit)⟩
  | prepare settings =>
      obtain ⟨opens, h⟩ := prepare_outcome settings f
      exact ⟨_, h, fun hf => hf.mapModules (fun _ hm => hm.prepared settings [f.name]) opens⟩

theorem Pass.applyAll_keepsPrintable (passes : List Pass) (f : File) :
    ∃ g, (Pass.applyAll f passes).outcome = .ok g ∧ (f.Printable -> g.Printable) := by
  induction passes generalizing f with
  | nil => exact ⟨f, rfl, id⟩
  | cons p passes ih =>
      obtain ⟨g, step, keeps⟩ := Pass.apply_keepsPrintable f p
      obtain ⟨last, run, keepsRun⟩ := ih g
      refine ⟨last, ?_, fun h => keepsRun (keeps h)⟩
      rw [Pass.applyAll, Traced.fold, Traced.outcome_bind step]
      exact run

/-! ## Printing -/

theorem Traced.exists_outcome_traverse {ω ε α β : Type} {f : α -> Traced ω ε β} {as : List α}
    (h : ∀ a ∈ as, ∃ b, (f a).outcome = .ok b) : ∃ bs, (Traced.traverse f as).outcome = .ok bs := by
  induction as with
  | nil => exact ⟨[], rfl⟩
  | cons a as ih =>
      obtain ⟨b, hb⟩ := h a List.mem_cons_self
      obtain ⟨bs, hbs⟩ := ih fun a' ha' => h a' (List.mem_cons_of_mem a ha')
      refine ⟨b :: bs, ?_⟩
      rw [Traced.traverse, Traced.outcome_bind hb, Traced.outcome_bind hbs, Traced.outcome_done]

theorem Param.print_outcome (function : String) (p : Param)
    (h : p.isRest = true -> ∃ element, p.type = .array element) :
    ∃ text, (p.print function).outcome = .ok text := by
  unfold Param.print
  split
  · rename_i isRest
    obtain ⟨element, isArray⟩ := h isRest
    rw [isArray]
    exact ⟨_, rfl⟩
  · exact ⟨_, rfl⟩

theorem Signature.Printable.print {s : Signature} (h : s.Printable) :
    ∃ line, s.print.outcome = .ok line := by
  obtain ⟨name, hasName⟩ := Option.isSome_iff_exists.mp h.named
  obtain ⟨params, hparams⟩ := Traced.exists_outcome_traverse fun p hp =>
    Param.print_outcome name p (h.rest p hp)
  rw [Signature.print, hasName]
  simp only
  rw [Traced.outcome_bind hparams]
  exact ⟨_, rfl⟩

theorem Decl.PrintableMember.print {d : Decl} (h : d.PrintableMember) :
    ∃ line, d.printMember.outcome = .ok line := by
  cases d with
  | function s => exact Signature.Printable.print h
  | property p =>
      rw [Decl.printMember, Property.print]
      cases p.index with
      | none => exact ⟨_, rfl⟩
      | some index => exact ⟨_, rfl⟩
  | _ => exact ⟨_, rfl⟩

theorem Interface.print_outcome (indent : String) (i : Interface)
    (h : ∀ m ∈ i.members, m.PrintableMember) :
    ∃ lines, (i.print indent).outcome = .ok lines := by
  obtain ⟨inherits, hinherits⟩ : ∃ lines, (Traced.traverse printInherit i.inherits).outcome =
      .ok lines := Traced.exists_outcome_traverse fun _ _ => ⟨_, rfl⟩
  obtain ⟨members, hmembers⟩ := Traced.exists_outcome_traverse fun m hm => (h m hm).print
  rw [Interface.print, Traced.outcome_bind rfl, Traced.outcome_bind hinherits,
    Traced.outcome_bind hmembers]
  exact ⟨_, rfl⟩

mutual

theorem Decl.PrintableEntry.print (indent : String) (d : Decl) (h : d.PrintableEntry) :
    ∃ lines, (d.printEntry indent).outcome = .ok lines := by
  cases d with
  | interface i =>
      rw [Decl.printEntry]
      exact Interface.print_outcome indent i ((Decl.printableEntry_interface i).mp h)
  | module m =>
      obtain ⟨name, entries⟩ := m
      rw [Decl.PrintableEntry] at h
      obtain ⟨inside, hinside⟩ := Decl.PrintableEntries.print (moduleIndent indent name) entries h
      rw [Decl.printEntry, Traced.outcome_bind hinside]
      exact ⟨_, rfl⟩
  | _ => exact ⟨_, rfl⟩

theorem Decl.PrintableEntries.print (indent : String) (ds : List Decl)
    (h : Decl.PrintableEntries ds) :
    ∃ lines, (Decl.printEntries indent ds).outcome = .ok lines := by
  cases ds with
  | nil => exact ⟨[], rfl⟩
  | cons d ds =>
      rw [Decl.PrintableEntries] at h
      obtain ⟨first, hfirst⟩ := Decl.PrintableEntry.print indent d h.1
      obtain ⟨rest, hrest⟩ := Decl.PrintableEntries.print indent ds h.2
      rw [Decl.printEntries, Traced.outcome_bind hfirst, Traced.outcome_bind hrest]
      exact ⟨_, rfl⟩

end

theorem printModules_outcome (before : List String) (ms : List Module)
    (h : ∀ m ∈ ms, m.Printable) : ∃ lines, (printModules before ms).outcome = .ok lines := by
  induction ms generalizing before with
  | nil => exact ⟨before, rfl⟩
  | cons m ms ih =>
      have rest := fun lines => ih lines fun m' hm' => h m' (List.mem_cons_of_mem m hm')
      rw [printModules]
      split
      · exact rest before
      · have hm := (Decl.printableEntry_module m).mpr (h m List.mem_cons_self)
        obtain ⟨lines, printed⟩ := Decl.PrintableEntry.print "" (.module m) hm
        have whole : (m.print before "").outcome = .ok (before ++ lines) := by
          rw [Module.print, Traced.outcome_bind printed, Traced.outcome_done]
        rw [Traced.outcome_bind whole]
        exact rest (before ++ lines)

theorem File.Printable.print {f : File} (h : f.Printable) :
    ∃ lines, f.print.outcome = .ok lines :=
  printModules_outcome _ f.modules ((File.printable_iff f).mp h)

/-- No run of passes fails, and after any number of its steps a file that was
printable is still printable, so that it can be printed. -/
theorem passes_succeed_and_stay_printable (f : File) (passes : List Pass) (n : Nat) :
    ∃ g, (Pass.applyAll f (passes.take n)).outcome = .ok g ∧
      (f.Printable -> g.Printable ∧ ∃ lines, g.print.outcome = .ok lines) := by
  obtain ⟨g, run, keeps⟩ := Pass.applyAll_keepsPrintable (passes.take n) f
  refine ⟨g, run, ?_⟩
  intro h
  exact ⟨keeps h, (keeps h).print⟩

/-- A nested module with a rest parameter in a member and in a function. -/
def loggerFile : File where
  name := "logger"
  opens := []
  modules := [⟨"", [
    .module ⟨"log", [
      .interface ⟨false, "Logger", [], [], [.function ⟨none, true, some "write", [],
        [⟨"parts", false, true, .array (.named "Date")⟩], .self⟩]⟩,
      .function ⟨none, false, some "create", [], [⟨"level", false, false, .literal "info"⟩,
        ⟨"sinks", false, true, .array (.named "Sink")⟩], .named "Logger"⟩]⟩]⟩]

def loggerPasses : List Pass :=
  [.specializeOverloads, .prepare { convertImports := true }, .mergeModules, .splitStatics "",
    .addExports "IExports" "Static"]

theorem loggerFile_stays_printable :
    loggerFile.Printable ∧
      ∃ g, (Pass.applyAll loggerFile (loggerPasses.take 4)).outcome = .ok g ∧
        g.Printable ∧ ∃ lines, g.print.outcome = .ok lines := by
  have printable : loggerFile.Printable := by
    rw [File.printable_iff]
    simp only [loggerFile, List.mem_singleton, forall_eq, Module.Printable, Decl.PrintableEntry,
      Decl.PrintableEntries, Decl.PrintableMember, and_true]
    constructor <;> constructor <;> simp
  obtain ⟨g, run, keeps⟩ := passes_succeed_and_stay_printable loggerFile loggerPasses 4
  exact ⟨printable, g, run, keeps printable⟩

end Bindgen
