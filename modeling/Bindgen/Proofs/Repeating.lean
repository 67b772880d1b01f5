import Bindgen.Proofs.NormalForm
import Bindgen.Proofs.Words

/-! # Running a pass twice

In what a pass yields there is no place left that its rule would change, not
even among the types that the rule put in itself. Running the pass again
therefore changes nothing.
-/

namespace Bindgen

/-- The pass never fails, and on what it yields it yields the same. -/
def Repeats {ω ε α : Type} (pass : α -> Traced ω ε α) : Prop :=
  ∀ a, ∃ b, (pass a).outcome = .ok b ∧ (pass b).outcome = .ok b

theorem repeats_of_outcome {ω ε α : Type} {pass : α -> Traced ω ε α} {g : α -> α}
    (outcome : ∀ a, (pass a).outcome = .ok (g a)) (again : ∀ a, g (g a) = g a) : Repeats pass := by
  intro a
  refine ⟨g a, outcome a, ?_⟩
  rw [outcome, again]

/-! ## Rewriting twice -/

namespace Rewriting

def Fixes (w : Rewriting) (d : Decl) : Prop :=
  w.apply d = d

/-- Whatever is rewritten, no part of the outcome would be changed again. -/
def Settles (w : Rewriting) : Prop :=
  ∀ d : Decl, (d.rewrite w).Every w.Fixes

variable {w : Rewriting}

/-- It is enough to look at one declaration with children that are settled. -/
theorem settles_of_step
    (step : ∀ d, (∀ c ∈ d.children, c.Every w.Fixes) -> (w.apply d).Every w.Fixes) :
    w.Settles := by
  intro d
  have anything : d.Every fun _ => True := fun _ _ => trivial
  exact anything.rewrite fun d _ inside => step (d.rebuild w) inside

theorem Shrinks.settles (hw : w.Shrinks) (again : ∀ d, w.apply (w.apply d) = w.apply d) :
    w.Settles := by
  apply settles_of_step
  intro d inside
  exact Decl.every_iff.mpr ⟨again d, fun c hc => inside c (hw d c hc)⟩

theorem Settles.rewrite (hw : w.Settles) (d : Decl) : (d.rewrite w).rewrite w = d.rewrite w :=
  Decl.rewrite_eq_self (hw d)

theorem Settles.rewriteEntries (hw : w.Settles) (m : Module) :
    (m.rewriteEntries w).rewriteEntries w = m.rewriteEntries w := by
  simp only [Module.rewriteEntries, List.map_map, Function.comp_def, hw.rewrite]

theorem Settles.rewriteModule (hw : w.Settles) (m : Module) :
    (m.rewrite w).rewrite w = m.rewrite w := by
  have whole := hw.rewrite (.module m)
  rw [Decl.rewrite_module, Decl.rewrite_module] at whole
  exact Decl.module.inj whole

theorem Settles.rewriteFile (hw : w.Settles) (f : File) :
    (f.rewrite w).rewrite w = f.rewrite w := by
  simp only [File.rewrite, List.map_map, Function.comp_def, hw.rewriteModule]

end Rewriting

/-! ## Rules that only rename or narrow -/

theorem Rewriting.collapseArrays_settles (marker : String) : (collapseArrays marker).Settles := by
  apply (collapseArrays_shrinks marker).settles
  intro d
  simp only [collapseArrays, ofTypes]
  rcases d.collapseArray_cases marker with same | ⟨element, -, collapsed⟩
  · rw [same, same]
  · rw [collapsed]
    rfl

theorem Rewriting.renameDates_settles : renameDates.Settles := by
  apply renameDates_shrinks.settles
  intro d
  cases d with
  | named name =>
      by_cases date : name = "Date"
      · subst date
        rfl
      · simp [renameDates, ofTypes, Decl.renameDate, date]
  | _ => rfl

theorem Rewriting.escapeNames_settles : escapeNames.Settles := by
  apply escapeNames_shrinks.settles
  intro d
  cases d with
  | function s =>
      have name : (s.name.map Word.escape).map Word.escape = s.name.map Word.escape := by
        cases s.name with
        | none => rfl
        | some name => simp [Word.escape_escape]
      simp only [escapeNames, Decl.escapeName, name]
  | _ => simp only [escapeNames, Decl.escapeName, Word.escape_escape]

/-- A specialized function has a template, and no function with one is specialized. -/
theorem Signature.specialize_specialize (s : Signature) :
    s.specialize.specialize = s.specialize := by
  have kept : ∀ t : Signature, t.emit.isSome = true -> t.specialize = t := by
    intro t template
    unfold Signature.specialize
    split
    case h_1 none _ _ => simp [none] at template
    case h_2 => rfl
  have cases : s.specialize = s ∨ s.specialize.emit.isSome = true := by
    unfold Signature.specialize
    split
    case h_1 => exact .inr rfl
    case h_2 => exact .inl rfl
  rcases cases with same | template
  · rw [same, same]
  · exact kept _ template

theorem Rewriting.specializeOverloads_settles : specializeOverloads.Settles := by
  apply specializeOverloads_shrinks.settles
  intro d
  cases d with
  | function s => exact congrArg Decl.function s.specialize_specialize
  | _ => rfl

theorem Decl.dedupeFrom_of_nodup {kept ds : List Decl} (h : (kept ++ ds).Nodup) :
    Decl.dedupeFrom kept ds = kept ++ ds := by
  induction ds generalizing kept with
  | nil => rw [Decl.dedupeFrom, List.append_nil]
  | cons d ds ih =>
      have new : d ∉ kept := by
        intro old
        exact (List.nodup_append.mp h).2.2 d old d List.mem_cons_self rfl
      have shift : kept ++ d :: ds = (kept ++ [d]) ++ ds := by simp
      rw [Decl.dedupeFrom, if_neg new, ih (shift ▸ h), shift]

theorem Decl.dedupe_dedupe (ds : List Decl) : Decl.dedupe (Decl.dedupe ds) = Decl.dedupe ds :=
  Decl.dedupeFrom_of_nodup (Decl.nodup_dedupe ds)

/-- The alternatives that are left are distinct and fit the limit. -/
theorem Rewriting.capUnions_settles (limit : Int) : (capUnions limit).Settles := by
  apply (capUnions_shrinks limit).settles
  intro d
  cases d with
  | union optional alternatives =>
      simp only [capUnions, ofTypes]
      rcases Decl.cappedUnion_cases limit optional alternatives with obj | ⟨fits, capped⟩
      · rw [obj]
        rfl
      · have narrow : ¬ limit < (Decl.dedupe alternatives).length := by omega
        rw [capped, Decl.cappedUnion, Decl.dedupe_dedupe, if_neg narrow]
  | _ => rfl

/-! ## Rules that put types and entries in -/

/-- The type that an interface puts into its members holds its own type
parameters, which are settled already. -/
theorem Rewriting.resolveSelf_settles : resolveSelf.Settles := by
  apply settles_of_step
  intro d inside
  cases d with
  | interface i =>
      have selfType : i.selfType.Every resolveSelf.Fixes := by
        refine Decl.every_iff.mpr ⟨rfl, ?_⟩
        intro c hc
        rcases List.mem_cons.mp hc with rfl | hc
        · exact Decl.every_named rfl
        · exact inside c (List.mem_append_left _ (List.mem_append_left _ hc))
      refine Decl.every_iff.mpr ⟨?_, ?_⟩
      · have members : (i.members.map (Decl.resultOf i.selfType)).map (Decl.resultOf i.selfType) =
            i.members.map (Decl.resultOf i.selfType) := by
          rw [List.map_map]
          apply List.map_congr_left
          intro member _
          exact Decl.resultOf_of_not_returnsSelf (Decl.returnsSelf_resultOf rfl member)
        exact congrArg (fun members => Decl.interface { i with members }) members
      · intro c hc
        rcases List.mem_append.mp hc with hc | hc
        · exact inside c (List.mem_append_left _ hc)
        · obtain ⟨m, hm, rfl⟩ := List.mem_map.mp hc
          exact (inside m (List.mem_append_right _ hm)).resultOf (fun _ _ => rfl) selfType
  | _ => exact Decl.every_iff.mpr ⟨rfl, inside⟩

/-- Neither half of a split interface is split again. -/
theorem Decl.splitStatic_of_mem {suffix : String} {d e : Decl}
    (h : e ∈ Decl.splitStatic suffix d) : Decl.splitStatic suffix e = [e] := by
  cases d with
  | interface i =>
      simp only [Decl.splitStatic] at h
      split at h
      case isTrue whole =>
          rw [List.mem_singleton.mp h]
          exact if_pos whole
      case isFalse =>
          rcases List.mem_cons.mp h with rfl | h
          · have noStatic : Interface.hasStaticMembers { i with members := i.instanceMembers } =
                false := by
              simp [Interface.hasStaticMembers, Interface.instanceMembers]
            exact if_pos (by simp [noStatic])
          · rw [List.mem_singleton.mp h]
            rfl
  | _ =>
      rw [List.mem_singleton.mp h]
      rfl

theorem flatMap_splitStatic_splitStatic (suffix : String) (ds : List Decl) :
    (ds.flatMap (Decl.splitStatic suffix)).flatMap (Decl.splitStatic suffix) =
      ds.flatMap (Decl.splitStatic suffix) := by
  have pieces : ∀ e ∈ ds.flatMap (Decl.splitStatic suffix), Decl.splitStatic suffix e = [e] := by
    intro e he
    obtain ⟨d, -, he⟩ := List.mem_flatMap.mp he
    exact Decl.splitStatic_of_mem he
  generalize ds.flatMap (Decl.splitStatic suffix) = es at pieces
  induction es with
  | nil => rfl
  | cons e es ih =>
      obtain ⟨first, rest⟩ := List.forall_mem_cons.mp pieces
      rw [List.flatMap_cons, first, ih rest, List.singleton_append]

theorem Rewriting.splitStatics_settles (suffix : String) : (splitStatics suffix).Settles := by
  apply settles_of_step
  intro d inside
  cases d with
  | module m =>
      refine Decl.every_iff.mpr ⟨?_, ?_⟩
      · have entries := flatMap_splitStatic_splitStatic suffix m.entries
        exact congrArg (fun entries => Decl.module { m with entries }) entries
      · intro e he
        obtain ⟨d, hd, he⟩ := List.mem_flatMap.mp he
        exact (inside d hd).splitStatic (fun _ _ => rfl) he
  | _ => exact Decl.every_iff.mpr ⟨rfl, inside⟩

/-! ## Imports and openings -/

theorem Decl.importedAt_importedAt (path : List String) (d : Decl) :
    (d.importedAt path).importedAt path = d.importedAt path := by
  induction d using Decl.children_induction generalizing path with
  | step d ih =>
      cases d with
      | module m =>
          obtain ⟨name, entries⟩ := m
          have inside : (entries.map (Decl.importedAt (pathInside path name))).map
              (Decl.importedAt (pathInside path name)) =
                entries.map (Decl.importedAt (pathInside path name)) := by
            rw [List.map_map]
            exact List.map_congr_left fun e he => ih e he _
          simp only [Decl.importedAt, Decl.allImportedAt_eq_map, inside]
      | var v =>
          obtain ⟨declared, name, type⟩ := v
          cases declared <;> rfl
      | _ => rfl

theorem Module.importedAt_importedAt (path : List String) (m : Module) :
    (m.importedAt path).importedAt path = m.importedAt path := by
  simp only [Module.importedAt, List.map_map, Function.comp_def, Decl.importedAt_importedAt]

theorem openMarked_repeats (mark opened : String) : Repeats (File.openMarked mark opened) := by
  intro f
  rcases openMarked_cases mark opened f with same | ⟨-, added⟩
  · exact ⟨f, same, same⟩
  · refine ⟨_, added, ?_⟩
    rcases openMarked_cases mark opened { f with opens := f.opens ++ [opened] } with
      same | ⟨closed, -⟩
    · exact same
    · exact absurd List.mem_concat_self closed

/-- Each of the passes, with whatever arguments, yields on its own outcome what
it yielded before. -/
theorem passes_repeat :
    Repeats (Module.resolveSelf (ω := Event)) ∧
    (∀ marker, Repeats (Module.collapseArrays (ω := Event) marker)) ∧
    Repeats (Module.renameDates (ω := Event)) ∧
    (∀ path, Repeats (Module.convertImports path)) ∧
    (∀ mark opened, Repeats (File.openMarked mark opened)) ∧
    (∀ suffix, Repeats (File.splitStatics (ω := Event) suffix)) ∧
    Repeats (File.escapeNames (ω := Event)) ∧
    Repeats (File.specializeOverloads (ω := Event)) ∧
    ∀ limit, Repeats (File.capUnions limit) := by
  refine ⟨?self, ?arrays, ?dates, ?imports, openMarked_repeats, ?statics, ?names, ?overloads,
    ?unions⟩
  case self =>
      exact repeats_of_outcome resolveSelf_outcome Rewriting.resolveSelf_settles.rewriteEntries
  case arrays =>
      intro marker
      exact repeats_of_outcome (collapseArrays_outcome marker)
        (Rewriting.collapseArrays_settles marker).rewriteEntries
  case dates =>
      exact repeats_of_outcome renameDates_outcome Rewriting.renameDates_settles.rewriteEntries
  case imports =>
      intro path
      exact repeats_of_outcome (Module.convertImports_outcome path)
        (Module.importedAt_importedAt path)
  case statics =>
      intro suffix
      exact repeats_of_outcome (splitStatics_outcome suffix)
        (Rewriting.splitStatics_settles suffix).rewriteFile
  case names =>
      exact repeats_of_outcome escapeNames_outcome Rewriting.escapeNames_settles.rewriteFile
  case overloads =>
      exact repeats_of_outcome specializeOverloads_outcome
        Rewriting.specializeOverloads_settles.rewriteFile
  case unions =>
      intro limit
      exact repeats_of_outcome (capUnions_outcome limit)
        (Rewriting.capUnions_settles limit).rewriteFile

end Bindgen
