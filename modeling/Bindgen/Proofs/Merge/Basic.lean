import Bindgen.Merge
import Bindgen.Proofs.Folding

/-! # Merging as folding by name

Merging folds interfaces by their names, and modules by theirs. The number of
levels that `mergeModulesTo` goes down does not matter as long as it reaches
the deepest module, so `mergeModules` satisfies the equation that describes it
without any number: `mergeModules_eq_gather`.
-/

namespace Bindgen

def interfaceFolding : Folding Decl String where
  key d := d.interface?.map Interface.name
  join
    | .interface first, .interface later => .interface (first.absorb later)
    | first, _ => first
  key_join first later := by
    cases first with
    | interface i => cases later <;> rfl
    | _ => rfl

/-- Modules are folded by their names; `combine` merges the entries of two
declarations of one module. -/
def moduleFolding (combine : List Decl -> List Decl) : Folding Decl String where
  key d := d.module?.map Module.name
  join
    | .module first, .module later =>
      .module { first with entries := combine (first.entries ++ later.entries) }
    | first, _ => first
  key_join first later := by
    cases first with
    | module m => cases later <;> rfl
    | _ => rfl

def Decl.mapEntries (combine : List Decl -> List Decl) : Decl -> Decl
  | .module m => .module { m with entries := combine m.entries }
  | d => d

def mergeEntries (ds : List Decl) : List Decl :=
  mergeInterfaces (mergeModules ds)

/-- Merge the entries of a module with `depth` levels of modules among them. -/
def mergeEntriesTo (depth : Nat) (ds : List Decl) : List Decl :=
  mergeInterfaces (mergeModulesTo depth ds)

/-! ## Steps of merging -/

theorem insertInterface_eq_insert (i : Interface) (ds : List Decl) :
    insertInterface i ds = interfaceFolding.insert (.interface i) ds := by
  induction ds with
  | nil => rfl
  | cons d ds ih =>
      cases d with
      | interface first =>
          by_cases h : first.name = i.name
          · simp [insertInterface, Folding.insert, Folding.meets, interfaceFolding,
              Decl.interface?, h]
          · have h' : ¬ i.name = first.name := fun he => h he.symm
            simp [insertInterface, Folding.insert, Folding.meets, interfaceFolding,
              Decl.interface?, h, h', ih]
      | _ =>
          simp [insertInterface, Folding.insert, Folding.meets, interfaceFolding,
            Decl.interface?, ih]

theorem addFoldingInterfaces_eq_insert (ds : List Decl) (d : Decl) :
    addFoldingInterfaces ds d = interfaceFolding.insert d ds := by
  cases d with
  | interface i => exact insertInterface_eq_insert i ds
  | _ => exact (Folding.insert_of_key_eq_none rfl ds).symm

theorem mergeInterfaces_eq_gather (ds : List Decl) :
    mergeInterfaces ds = interfaceFolding.gather ds := by
  have step : addFoldingInterfaces = fun acc d => interfaceFolding.insert d acc := by
    funext acc d
    exact addFoldingInterfaces_eq_insert acc d
  rw [mergeInterfaces, step, Folding.foldl_insert]

section

variable (combine : List Decl -> List Decl)

theorem insertModule_eq_insert (m : Module) (ds : List Decl) :
    insertModule combine m ds = (moduleFolding combine).insert (.module m) ds := by
  induction ds with
  | nil => rfl
  | cons d ds ih =>
      cases d with
      | module first =>
          by_cases h : first.name = m.name
          · simp [insertModule, Folding.insert, Folding.meets, moduleFolding, Decl.module?, h]
          · have h' : ¬ m.name = first.name := fun he => h he.symm
            simp [insertModule, Folding.insert, Folding.meets, moduleFolding, Decl.module?,
              h, h', ih]
      | _ =>
          simp [insertModule, Folding.insert, Folding.meets, moduleFolding, Decl.module?, ih]

theorem addFoldingModules_eq_insert (ds : List Decl) (d : Decl) :
    addFoldingModules combine ds d =
      (moduleFolding combine).insert (d.mapEntries combine) ds := by
  cases d with
  | module m => exact insertModule_eq_insert combine _ ds
  | _ => exact (Folding.insert_of_key_eq_none rfl ds).symm

theorem foldl_addFoldingModules (ds : List Decl) :
    ds.foldl (addFoldingModules combine) [] =
      (moduleFolding combine).gather (ds.map (Decl.mapEntries combine)) := by
  have step : addFoldingModules combine =
      fun acc d => (moduleFolding combine).insert (d.mapEntries combine) acc := by
    funext acc d
    exact addFoldingModules_eq_insert combine acc d
  rw [step, ← Folding.foldl_insert, List.foldl_map]

end

theorem mergeModulesTo_succ (depth : Nat) (ds : List Decl) :
    mergeModulesTo (depth + 1) ds =
      (moduleFolding (mergeEntriesTo depth)).gather
        (ds.map (Decl.mapEntries (mergeEntriesTo depth))) :=
  foldl_addFoldingModules (mergeEntriesTo depth) ds

/-! ## Depth -/

theorem modulesDepth_le_iff {ds : List Decl} {n : Nat} :
    Decl.modulesDepth ds ≤ n ↔ ∀ d ∈ ds, d.moduleDepth ≤ n := by
  induction ds with
  | nil => simp [Decl.modulesDepth]
  | cons d ds ih =>
      rw [Decl.modulesDepth, Nat.max_le, ih]
      simp

theorem modulesDepth_append_le {ds es : List Decl} {n : Nat} (hd : Decl.modulesDepth ds ≤ n)
    (he : Decl.modulesDepth es ≤ n) : Decl.modulesDepth (ds ++ es) ≤ n := by
  rw [modulesDepth_le_iff] at hd he ⊢
  intro d hmem
  rcases List.mem_append.mp hmem with h | h
  · exact hd d h
  · exact he d h

theorem moduleDepth_module (m : Module) :
    (Decl.module m).moduleDepth = Decl.modulesDepth m.entries + 1 := by
  cases m
  rw [Decl.moduleDepth]

theorem moduleDepth_mapEntries_le {combine : List Decl -> List Decl} {n : Nat}
    (hc : ∀ es, Decl.modulesDepth es ≤ n -> Decl.modulesDepth (combine es) ≤ n) {d : Decl}
    (hd : d.moduleDepth ≤ n + 1) : (d.mapEntries combine).moduleDepth ≤ n + 1 := by
  cases d with
  | module m =>
      rw [moduleDepth_module] at hd
      rw [Decl.mapEntries, moduleDepth_module]
      exact Nat.succ_le_succ (hc _ (Nat.le_of_succ_le_succ hd))
  | _ => exact hd

theorem moduleDepth_join_le {combine : List Decl -> List Decl} {n : Nat}
    (hc : ∀ es, Decl.modulesDepth es ≤ n -> Decl.modulesDepth (combine es) ≤ n) {d e : Decl}
    (hd : d.moduleDepth ≤ n + 1) (he : e.moduleDepth ≤ n + 1) :
    ((moduleFolding combine).join d e).moduleDepth ≤ n + 1 := by
  cases d with
  | module m =>
      cases e with
      | module m' =>
          rw [moduleDepth_module] at hd he
          simp only [moduleFolding, moduleDepth_module]
          exact Nat.succ_le_succ (hc _ (modulesDepth_append_le (Nat.le_of_succ_le_succ hd)
            (Nat.le_of_succ_le_succ he)))
      | _ => exact hd
  | _ => exact hd

theorem modulesDepth_mergeInterfaces_le {ds : List Decl} {n : Nat}
    (h : Decl.modulesDepth ds ≤ n) : Decl.modulesDepth (mergeInterfaces ds) ≤ n := by
  rw [mergeInterfaces_eq_gather, modulesDepth_le_iff]
  refine Folding.forall_mem_gather ?_ (modulesDepth_le_iff.mp h)
  intro d e hd _
  cases d with
  | interface i => cases e <;> simp [interfaceFolding, Decl.moduleDepth]
  | _ => exact hd

theorem module?_eq_none_of_moduleDepth {d : Decl} (h : d.moduleDepth ≤ 0) : d.module? = none := by
  cases d with
  | module m => simp [moduleDepth_module] at h
  | _ => rfl

theorem mapEntries_of_module?_eq_none {combine : List Decl -> List Decl} {d : Decl}
    (h : d.module? = none) : d.mapEntries combine = d := by
  cases d with
  | module m => simp [Decl.module?] at h
  | _ => rfl

/-- Declarations without modules stay as they are, whatever the number of
levels. -/
theorem mergeModulesTo_of_modulesDepth (depth : Nat) {ds : List Decl}
    (h : Decl.modulesDepth ds ≤ 0) : mergeModulesTo depth ds = ds := by
  have none : ∀ d ∈ ds, d.module? = none := fun d hd =>
    module?_eq_none_of_moduleDepth (modulesDepth_le_iff.mp h d hd)
  cases depth with
  | zero => rfl
  | succ depth =>
      have same : ds.map (Decl.mapEntries (mergeEntriesTo depth)) = ds := by
        rw [List.map_congr_left fun d hd => mapEntries_of_module?_eq_none (none d hd)]
        exact List.map_id ds
      rw [mergeModulesTo_succ, same]
      apply Folding.gather_of_forall_key_eq_none
      intro d hd
      simp [moduleFolding, none d hd]

/-- Merging does not nest modules deeper. -/
theorem modulesDepth_mergeModulesTo_le (depth : Nat) {ds : List Decl} {n : Nat}
    (h : Decl.modulesDepth ds ≤ n) : Decl.modulesDepth (mergeModulesTo depth ds) ≤ n := by
  induction depth generalizing ds n with
  | zero => exact h
  | succ depth ih =>
      cases n with
      | zero =>
          rw [mergeModulesTo_of_modulesDepth (depth + 1) h]
          exact h
      | succ n =>
          have hc : ∀ es, Decl.modulesDepth es ≤ n ->
              Decl.modulesDepth (mergeEntriesTo depth es) ≤ n :=
            fun es hes => modulesDepth_mergeInterfaces_le (ih hes)
          rw [mergeModulesTo_succ, modulesDepth_le_iff]
          refine Folding.forall_mem_gather (fun d e => moduleDepth_join_le hc) ?_
          intro d hd
          obtain ⟨e, he, rfl⟩ := List.mem_map.mp hd
          exact moduleDepth_mapEntries_le hc (modulesDepth_le_iff.mp h e he)

theorem modulesDepth_mergeEntriesTo_le (depth : Nat) {ds : List Decl} {n : Nat}
    (h : Decl.modulesDepth ds ≤ n) : Decl.modulesDepth (mergeEntriesTo depth ds) ≤ n :=
  modulesDepth_mergeInterfaces_le (modulesDepth_mergeModulesTo_le depth h)

theorem modulesDepth_mergeModules_le (ds : List Decl) :
    Decl.modulesDepth (mergeModules ds) ≤ Decl.modulesDepth ds :=
  modulesDepth_mergeModulesTo_le _ (Nat.le_refl _)

/-! ## The number of levels -/

/-- Modules that are nested at most `n + 1` deep are folded alike by two ways to
combine entries that agree on entries nested at most `n` deep. -/
theorem gather_modules_congr {combine combine' : List Decl -> List Decl} {n : Nat}
    (same : ∀ es, Decl.modulesDepth es ≤ n -> combine es = combine' es)
    (hc : ∀ es, Decl.modulesDepth es ≤ n -> Decl.modulesDepth (combine' es) ≤ n)
    {ds : List Decl} (h : Decl.modulesDepth ds ≤ n + 1) :
    (moduleFolding combine).gather (ds.map (Decl.mapEntries combine)) =
      (moduleFolding combine').gather (ds.map (Decl.mapEntries combine')) := by
  rw [modulesDepth_le_iff] at h
  have mapped : ds.map (Decl.mapEntries combine) = ds.map (Decl.mapEntries combine') := by
    apply List.map_congr_left
    intro d hd
    cases d with
    | module m =>
        have hm := h _ hd
        rw [moduleDepth_module] at hm
        simp only [Decl.mapEntries, same m.entries (Nat.le_of_succ_le_succ hm)]
    | _ => rfl
  rw [mapped]
  have keys : ∀ d, (moduleFolding combine).key d = (moduleFolding combine').key d := fun _ => rfl
  refine Folding.gather_congr (p := fun d => d.moduleDepth ≤ n + 1) keys ?_ ?_
  · intro d e hd he
    refine ⟨?_, moduleDepth_join_le hc hd he⟩
    cases d with
    | module m =>
        cases e with
        | module m' =>
            rw [moduleDepth_module] at hd he
            simp only [moduleFolding, same (m.entries ++ m'.entries)
              (modulesDepth_append_le (Nat.le_of_succ_le_succ hd) (Nat.le_of_succ_le_succ he))]
        | _ => rfl
    | _ => rfl
  · intro d hd
    obtain ⟨e, he, rfl⟩ := List.mem_map.mp hd
    exact moduleDepth_mapEntries_le hc (h e he)

theorem mergeModulesTo_succ_of_le {depth : Nat} {ds : List Decl}
    (h : Decl.modulesDepth ds ≤ depth) :
    mergeModulesTo (depth + 1) ds = mergeModulesTo depth ds := by
  induction depth generalizing ds with
  | zero => exact mergeModulesTo_of_modulesDepth 1 h
  | succ depth ih =>
      have same : ∀ es, Decl.modulesDepth es ≤ depth ->
          mergeEntriesTo (depth + 1) es = mergeEntriesTo depth es := by
        intro es hes
        rw [mergeEntriesTo, ih hes, mergeEntriesTo]
      rw [mergeModulesTo_succ, mergeModulesTo_succ]
      exact gather_modules_congr same (fun es => modulesDepth_mergeEntriesTo_le depth) h

/-- Levels below the deepest module make no difference. -/
theorem mergeModulesTo_of_le {depth : Nat} {ds : List Decl} (h : Decl.modulesDepth ds ≤ depth) :
    mergeModulesTo depth ds = mergeModules ds := by
  induction h with
  | refl => rfl
  | step h ih => rw [mergeModulesTo_succ_of_le h, ih]

theorem mergeEntriesTo_of_le {depth : Nat} {ds : List Decl} (h : Decl.modulesDepth ds ≤ depth) :
    mergeEntriesTo depth ds = mergeEntries ds := by
  rw [mergeEntriesTo, mergeModulesTo_of_le h, mergeEntries]

/-- The equation that describes merging: the entries of every module are merged,
then the modules are folded by their names. -/
theorem mergeModules_eq_gather (ds : List Decl) :
    mergeModules ds =
      (moduleFolding mergeEntries).gather (ds.map (Decl.mapEntries mergeEntries)) := by
  have deep : Decl.modulesDepth ds ≤ Decl.modulesDepth ds + 1 := Nat.le_succ _
  rw [← mergeModulesTo_of_le deep, mergeModulesTo_succ]
  refine gather_modules_congr (fun es => mergeEntriesTo_of_le) ?_ deep
  intro es hes
  rw [← mergeEntriesTo_of_le hes]
  exact modulesDepth_mergeEntriesTo_le _ hes

end Bindgen
