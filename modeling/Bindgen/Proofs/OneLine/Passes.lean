import Bindgen.Proofs.Calm
import Bindgen.Proofs.Merge.Basic
import Bindgen.Proofs.OneLine.Texts

/-! # Lines through merging and the passes

A declaration whose parts are all on one line stays so when it is merged and
prepared. The names that the passes make up are put together from names of the
declaration, from the settings and from texts that are on one line themselves.
-/

namespace Bindgen

open Text

/-- The texts that get from the settings into a file. -/
structure Settings.OneLine (settings : Settings) : Prop where
  opens : ∀ o ∈ settings.opens, Text.OneLine o
  browserOpen : Text.OneLine settings.browserOpen
  staticSuffix : Text.OneLine settings.staticSuffix
  exportsName : Text.OneLine settings.exportsName

/-! ## Merging -/

theorem mem_children_absorb {i j : Interface} {c : Decl}
    (h : c ∈ (Decl.interface (i.absorb j)).children) :
    c ∈ (Decl.interface i).children ∨ c ∈ (Decl.interface j).children := by
  simp only [Decl.children, Interface.absorb, List.mem_append] at h ⊢
  grind

section

variable {ds : List Decl}

theorem oneLine_mergeInterfaces (h : ∀ d ∈ ds, d.Every Decl.OneLine) :
    ∀ d ∈ mergeInterfaces ds, d.Every Decl.OneLine := by
  rw [mergeInterfaces_eq_gather]
  refine Folding.forall_mem_gather ?_ h
  intro first later hfirst hlater
  cases first with
  | interface i =>
      cases later with
      | interface j =>
          refine Decl.every_iff.mpr ⟨hfirst.self, ?_⟩
          exact fun c hc => (mem_children_absorb hc).elim hfirst.child hlater.child
      | _ => exact hfirst
  | _ => exact hfirst

theorem Decl.Every.oneLine_entries {m : Module} (h : (Decl.module m).Every Decl.OneLine)
    {entries : List Decl} (hentries : ∀ d ∈ entries, d.Every Decl.OneLine) :
    (Decl.module { m with entries }).Every Decl.OneLine :=
  Decl.every_iff.mpr ⟨h.self, hentries⟩

theorem oneLine_gather_modules {combine : List Decl -> List Decl}
    (hc : ∀ ds, (∀ d ∈ ds, d.Every Decl.OneLine) -> ∀ d ∈ combine ds, d.Every Decl.OneLine)
    (h : ∀ d ∈ ds, d.Every Decl.OneLine) :
    ∀ d ∈ (moduleFolding combine).gather (ds.map (Decl.mapEntries combine)),
      d.Every Decl.OneLine := by
  refine Folding.forall_mem_gather ?_ ?_
  · intro first later hfirst hlater
    cases first with
    | module m =>
        cases later with
        | module m' =>
            have entries : ∀ d ∈ m.entries ++ m'.entries, d.Every Decl.OneLine :=
              List.forall_mem_append.mpr ⟨fun _ => hfirst.child, fun _ => hlater.child⟩
            exact hfirst.oneLine_entries (hc _ entries)
        | _ => exact hfirst
    | _ => exact hfirst
  · intro d hd
    obtain ⟨e, he, rfl⟩ := List.mem_map.mp hd
    cases e with
    | module m => exact (h _ he).oneLine_entries (hc m.entries fun _ => (h _ he).child)
    | _ => exact h _ he

theorem oneLine_mergeModulesTo (depth : Nat) (h : ∀ d ∈ ds, d.Every Decl.OneLine) :
    ∀ d ∈ mergeModulesTo depth ds, d.Every Decl.OneLine := by
  induction depth generalizing ds with
  | zero => exact h
  | succ depth ih =>
      rw [mergeModulesTo_succ]
      exact oneLine_gather_modules (fun es hes => oneLine_mergeInterfaces (ih hes)) h

end

theorem Decl.Every.oneLine_merge {f : File} (h : (Decl.file f).Every Decl.OneLine) :
    (Decl.file f.merge).Every Decl.OneLine := by
  refine Decl.every_iff.mpr ⟨h.self, ?_⟩
  intro c hc
  obtain ⟨m, hm, rfl⟩ := List.mem_map.mp hc
  obtain ⟨d, hd, isModule⟩ := List.mem_filterMap.mp hm
  cases d with
  | module m' =>
      rw [← Option.some.inj isModule]
      exact oneLine_mergeModulesTo _ (fun _ => h.child) _ hd
  | _ => cases isModule

/-! ## Passes that rename or narrow -/

theorem Decl.mem_texts_escapeName {d : Decl} {s : String} (h : s ∈ d.escapeName.texts) :
    s ∈ d.texts ∨ ∃ t ∈ d.texts, s = Word.escape t := by
  cases d with
  | function f =>
      rcases List.mem_append.mp h with name | emit
      · obtain ⟨t, ht, rfl⟩ := Option.map_eq_some_iff.mp (Option.mem_toList.mp name)
        exact .inr ⟨t, List.mem_append_left _ (Option.mem_toList.mpr ht), rfl⟩
      · exact .inl (List.mem_append_right _ emit)
  | property p =>
      rcases List.mem_cons.mp h with name | emit
      · exact .inr ⟨p.name, List.mem_cons_self, name⟩
      · exact .inl (List.mem_cons_of_mem _ emit)
  | imported i =>
      rcases List.mem_cons.mp h with binding | rest
      · exact .inr ⟨i.binding, List.mem_cons_self, binding⟩
      · exact .inl (List.mem_cons_of_mem _ rest)
  | named _ | param _ | interface _ | module _ | var _ | typeAlias _ =>
      exact .inr ⟨_, List.mem_cons_self, List.mem_singleton.mp h⟩
  | _ => exact .inl h

namespace Rewriting

variable {w : Rewriting}

theorem keeps_oneLine (apply : ∀ d, d.Every Decl.OneLine -> (w.apply d).Every Decl.OneLine) :
    w.Keeps Decl.OneLine where
  rebuild d h := by
    rw [Decl.OneLine, Decl.texts_rebuild]
    exact h
  apply := apply

theorem Shrinks.keeps_oneLine (hw : w.Shrinks) (apply : ∀ d, d.OneLine -> (w.apply d).OneLine) :
    w.Keeps Decl.OneLine :=
  Rewriting.keeps_oneLine fun d h => h.of_children (apply d h.self) (hw d)

theorem collapseArrays_keeps_oneLine (marker : String) :
    (collapseArrays marker).Keeps Decl.OneLine := by
  apply (collapseArrays_shrinks marker).keeps_oneLine
  intro d h
  simp only [collapseArrays, ofTypes]
  rcases d.collapseArray_cases marker with same | ⟨element, -, collapsed⟩
  · rwa [same]
  · rw [collapsed]
    exact List.forall_mem_nil _

theorem renameDates_keeps_oneLine : renameDates.Keeps Decl.OneLine := by
  apply renameDates_shrinks.keeps_oneLine
  intro d h
  cases d with
  | named name =>
      refine List.forall_mem_singleton.mpr ?_
      split
      · decide
      · exact h name List.mem_cons_self
  | _ => exact h

theorem escapeNames_keeps_oneLine : escapeNames.Keeps Decl.OneLine := by
  apply escapeNames_shrinks.keeps_oneLine
  intro d h s hs
  rcases Decl.mem_texts_escapeName hs with old | ⟨t, ht, rfl⟩
  · exact h s old
  · exact (h t ht).escape

theorem quoteNames_keeps_oneLine (bound : List String) : (quoteNames bound).Keeps Decl.OneLine := by
  apply (quoteNames_shrinks bound).keeps_oneLine
  intro d h
  cases d with
  | named name =>
      have nameText := h name List.mem_cons_self
      refine List.forall_mem_singleton.mpr ?_
      split
      · exact oneLine_append.mpr ⟨by decide, nameText⟩
      · exact nameText
  | _ => exact h

theorem capUnions_keeps_oneLine (limit : Int) : (capUnions limit).Keeps Decl.OneLine := by
  apply (capUnions_shrinks limit).keeps_oneLine
  intro d h
  cases d with
  | union optional alternatives =>
      simp only [capUnions, ofTypes]
      rcases Decl.cappedUnion_cases limit optional alternatives with obj | ⟨-, capped⟩
      · rw [obj]
        exact List.forall_mem_singleton.mpr (by decide)
      · rw [capped]
        exact List.forall_mem_nil _
  | _ => exact h

end Rewriting

/-- The new name and the template have the string of a parameter in them. -/
theorem oneLine_specialize {s : Signature} (h : (Decl.function s).Every Decl.OneLine) :
    (Decl.function s.specialize).OneLine := by
  unfold Signature.specialize
  split
  case h_2 => exact h.self
  case h_1 name paramName optional isRest text params emit named first =>
      have hname : Text.OneLine (Word.unescape name) := by
        have own := h.self name (List.mem_append_left _ (Option.mem_toList.mpr named))
        exact own.unescape
      have htext : Text.OneLine text := by
        have param : .param ⟨paramName, optional, isRest, .literal text⟩ ∈
            (Decl.function s).children := by
          simp [Decl.children, first]
        have literal := (h.child param).child (c := .literal text) List.mem_cons_self
        exact literal.self text List.mem_cons_self
      have newName : Text.OneLine (Word.unescape name ++ "_" ++ text) := by
        simp only [oneLine_append, hname, htext, and_true, true_and]
        decide
      have template : Text.OneLine (overloadTemplate (Word.unescape name) text) := by
        simp only [overloadTemplate, oneLine_append, hname, htext, and_true]
        decide
      exact List.forall_mem_cons.mpr ⟨newName.escape, List.forall_mem_singleton.mpr template⟩

namespace Rewriting

theorem specializeOverloads_keeps_oneLine : specializeOverloads.Keeps Decl.OneLine := by
  apply keeps_oneLine
  intro d h
  refine h.of_children ?_ (specializeOverloads_shrinks d)
  cases d with
  | function s => exact oneLine_specialize h
  | _ => exact h.self

end Rewriting

/-! ## Passes that put something in -/

theorem oneLine_splitStatic {suffix : String} (hsuffix : Text.OneLine suffix) {d e : Decl}
    (h : d.Every Decl.OneLine) (he : e ∈ Decl.splitStatic suffix d) : e.Every Decl.OneLine := by
  cases d with
  | interface i =>
      have piece : ∀ {j : Interface}, Text.OneLine j.name -> j.PartOf i ->
          (Decl.interface j).Every Decl.OneLine := fun hname hj =>
        h.of_children (List.forall_mem_singleton.mpr hname) hj.children
      have name : Text.OneLine i.name := h.self i.name List.mem_cons_self
      simp only [Decl.splitStatic] at he
      split at he
      · rw [List.mem_singleton.mp he]
        exact h
      · rcases List.mem_cons.mp he with rfl | he
        · exact piece name ⟨rfl, fun _ => id, fun _ hc => (List.mem_filter.mp hc).1⟩
        · rw [List.mem_singleton.mp he]
          exact piece (oneLine_append.mpr ⟨name, hsuffix⟩)
            ⟨rfl, List.forall_mem_nil _, fun _ hc => (List.mem_filter.mp hc).1⟩
  | _ =>
      rw [List.mem_singleton.mp he]
      exact h

theorem oneLine_exported? {suffix : String} {d e : Decl} (h : d.Every Decl.OneLine)
    (he : d.exported? suffix = some e) : e.Every Decl.OneLine := by
  cases d with
  | interface i =>
      simp only [Decl.exported?] at he
      split at he
      · have name : Text.OneLine i.name := h.self i.name List.mem_cons_self
        have short : Text.OneLine (withoutSuffix suffix i.name) := by
          unfold withoutSuffix
          split
          · exact name.of_mem fun _ => List.mem_of_mem_take
          · exact name
        rw [← Option.some.inj he]
        refine Decl.every_iff.mpr ⟨List.forall_mem_singleton.mpr short, ?_⟩
        exact List.forall_mem_singleton.mpr (Decl.every_named_oneLine name)
      · cases he
  | var v | function s =>
      rw [← Option.some.inj he]
      exact h
  | _ => cases he

theorem oneLine_withExports {name suffix : String} (hname : Text.OneLine name) {ds : List Decl}
    (h : ∀ d ∈ ds, d.Every Decl.OneLine) :
    ∀ d ∈ withExports name suffix ds, d.Every Decl.OneLine := by
  have members : ∀ e ∈ ds.filterMap (Decl.exported? suffix), e.Every Decl.OneLine := by
    intro e he
    obtain ⟨d, hd, exported⟩ := List.mem_filterMap.mp he
    exact oneLine_exported? (h d hd) exported
  unfold withExports
  split
  · exact h
  · refine List.forall_mem_cons.mpr ⟨?_, h⟩
    exact Decl.every_iff.mpr ⟨List.forall_mem_singleton.mpr hname, members⟩

theorem Decl.Every.oneLine_importedAt {path : List String} (hpath : ∀ s ∈ path, Text.OneLine s)
    {d : Decl} (h : d.Every Decl.OneLine) : (d.importedAt path).Every Decl.OneLine := by
  induction d using Decl.children_induction generalizing path with
  | step d ih =>
      cases d with
      | module m =>
          obtain ⟨name, entries⟩ := m
          have inside : ∀ s ∈ pathInside path name, Text.OneLine s := by
            unfold pathInside
            split
            · exact hpath
            · exact List.forall_mem_append.mpr
                ⟨hpath, List.forall_mem_singleton.mpr (h.self name List.mem_cons_self)⟩
          rw [Decl.importedAt, Decl.allImportedAt_eq_map]
          refine Decl.every_iff.mpr ⟨h.self, ?_⟩
          exact List.forall_mem_map.mpr fun e he => ih e he inside (h.child he)
      | imported i =>
          have texts : ∀ s ∈ i.binding :: i.type :: path, Text.OneLine s :=
            List.forall_mem_cons.mpr ⟨h.self _ (by simp [Decl.texts]),
              List.forall_mem_cons.mpr ⟨h.self _ (by simp [Decl.texts]), hpath⟩⟩
          exact Decl.every_iff.mpr ⟨texts, nofun⟩
      | var v =>
          obtain ⟨declared, name, type⟩ := v
          have typeText := (h.child (c := type) List.mem_cons_self).oneLine_typeText
          rw [Decl.importedAt]
          split
          · have texts : ∀ s ∈ name :: type.typeText :: path, Text.OneLine s :=
              List.forall_mem_cons.mpr ⟨h.self name List.mem_cons_self,
                List.forall_mem_cons.mpr ⟨typeText, hpath⟩⟩
            exact Decl.every_iff.mpr ⟨texts, nofun⟩
          · exact h
      | _ => exact h

namespace Rewriting

theorem resolveSelf_keeps_oneLine : resolveSelf.Keeps Decl.OneLine := by
  apply keeps_oneLine
  intro d h
  cases d with
  | interface i =>
      have selfType : i.selfType.Every Decl.OneLine := by
        refine Decl.every_iff.mpr ⟨nofun, List.forall_mem_cons.mpr ⟨?_, ?_⟩⟩
        · exact Decl.every_named_oneLine (h.self i.name List.mem_cons_self)
        · exact fun p hp => h.child (List.mem_append_left _ (List.mem_append_left _ hp))
      exact h.mapMembers h.self fun _ hd => hd.resultOf (fun _ hs => hs) selfType
  | _ => exact h

theorem splitStatics_keeps_oneLine {suffix : String} (hsuffix : Text.OneLine suffix) :
    (splitStatics suffix).Keeps Decl.OneLine := by
  apply keeps_oneLine
  intro d h
  cases d with
  | module m =>
      refine h.oneLine_entries fun e he => ?_
      obtain ⟨entry, hentry, he⟩ := List.mem_flatMap.mp he
      exact oneLine_splitStatic hsuffix (h.child hentry) he
  | _ => exact h

theorem addExports_keeps_oneLine {name : String} (hname : Text.OneLine name) (suffix : String) :
    (addExports name suffix).Keeps Decl.OneLine := by
  apply keeps_oneLine
  intro d h
  cases d with
  | module m => exact h.oneLine_entries (oneLine_withExports hname fun _ => h.child)
  | _ => exact h

theorem quoteFunctions_keeps_oneLine : quoteFunctions.Keeps Decl.OneLine := by
  apply keeps_oneLine
  intro d h
  cases d with
  | interface i => exact h.mapMembers h.self fun _ hd => hd.quotedFunction quoteNames_keeps_oneLine
  | _ => exact h

theorem quoteTypes_keeps_oneLine : quoteTypes.Keeps Decl.OneLine := by
  apply keeps_oneLine
  intro d h
  cases d with
  | interface i => exact h.quoted quoteNames_keeps_oneLine i.typeParams
  | typeAlias a => exact h.quoted quoteNames_keeps_oneLine a.typeParams
  | _ => exact h

end Rewriting

/-! ## All passes together -/

section

variable {m : Module}

theorem Decl.Every.oneLine_rewriteEntries {w : Rewriting} (hw : w.Keeps Decl.OneLine)
    (h : (Decl.module m).Every Decl.OneLine) :
    (Decl.module (m.rewriteEntries w)).Every Decl.OneLine :=
  h.oneLine_entries (List.forall_mem_map.mpr fun _ he => (h.child he).rewrite_of_keeps hw)

theorem Decl.Every.oneLine_settledImports (settings : Settings) {path : List String}
    (hpath : ∀ s ∈ path, Text.OneLine s) (h : (Decl.module m).Every Decl.OneLine) :
    (Decl.module (m.settledImports settings path)).Every Decl.OneLine := by
  unfold Module.settledImports
  split
  · have whole := h.oneLine_importedAt hpath
    cases m
    rwa [Decl.importedAt, Decl.allImportedAt_eq_map] at whole
  · exact h

theorem Decl.Every.oneLine_prepared {settings : Settings} (hsettings : settings.OneLine)
    {path : List String} (hpath : ∀ s ∈ path, Text.OneLine s)
    (h : (Decl.module m).Every Decl.OneLine) :
    (Decl.module (m.prepared settings path)).Every Decl.OneLine := by
  have imports := h.oneLine_settledImports settings hpath
  have resolved := imports.oneLine_rewriteEntries Rewriting.resolveSelf_keeps_oneLine
  have arrays := resolved.oneLine_rewriteEntries
    (Rewriting.collapseArrays_keeps_oneLine nodeArrayMarker)
  have types := arrays.oneLine_rewriteEntries Rewriting.renameDates_keeps_oneLine
  have split := types.rewriteModule_of_keeps
    (Rewriting.splitStatics_keeps_oneLine hsettings.staticSuffix)
  have exports := split.rewriteModule_of_keeps
    (Rewriting.addExports_keeps_oneLine hsettings.exportsName settings.staticSuffix)
  have escaped := exports.rewriteModule_of_keeps Rewriting.escapeNames_keeps_oneLine
  have quoted := (escaped.rewriteModule_of_keeps
    Rewriting.quoteFunctions_keeps_oneLine).rewriteModule_of_keeps
    Rewriting.quoteTypes_keeps_oneLine
  exact (quoted.rewriteModule_of_keeps
    Rewriting.specializeOverloads_keeps_oneLine).rewriteModule_of_keeps
    (Rewriting.capUnions_keeps_oneLine settings.maxUnionArity)

end

theorem Decl.Every.oneLine_prepare {settings : Settings} (hsettings : settings.OneLine)
    {f g : File} (h : (Decl.file f).Every Decl.OneLine)
    (prepared : (f.prepare settings).outcome = .ok g) : (Decl.file g).Every Decl.OneLine := by
  obtain ⟨opens, few, outcome⟩ := prepare_outcome_opens settings f
  obtain rfl := Except.ok.inj (outcome.symm.trans prepared)
  have name : Text.OneLine f.name := h.self f.name List.mem_cons_self
  refine Decl.every_iff.mpr ⟨List.forall_mem_cons.mpr ⟨name, ?_⟩, ?_⟩
  · intro o ho
    rcases few o ho with old | rfl
    · exact h.self o (List.mem_cons_of_mem _ old)
    · exact hsettings.browserOpen
  · intro c hc
    obtain ⟨n, hn, rfl⟩ := List.mem_map.mp hc
    obtain ⟨m, hm, rfl⟩ := List.mem_map.mp hn
    have inside := h.child (List.mem_map_of_mem hm)
    exact inside.oneLine_prepared hsettings (List.forall_mem_singleton.mpr name)

end Bindgen
