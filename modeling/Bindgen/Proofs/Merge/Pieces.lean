import Bindgen.Proofs.Merge.Basic

/-! # Merging in pieces

Pieces that are merged already can be merged again, in any grouping, and the
result is that of merging everything at once. The law is proved for every
number of levels by induction on it: on one level, modules of a name are
joined by merging their entries, which is associative because the law holds
one level below.
-/

namespace Bindgen

/-- Merging pieces that are merged already gives the same as merging the whole. -/
structure Piecewise (f : List Decl -> List Decl) : Prop where
  nil : f [] = []
  append : ∀ ds es, f (f ds ++ f es) = f (ds ++ es)

namespace Piecewise

variable {f : List Decl -> List Decl}

theorem idem (hf : Piecewise f) (ds : List Decl) : f (f ds) = f ds := by
  simpa [hf.nil] using hf.append ds []

theorem left (hf : Piecewise f) (ds es : List Decl) : f (f ds ++ es) = f (ds ++ es) := by
  rw [← hf.append (f ds) es, hf.idem, hf.append]

theorem right (hf : Piecewise f) (ds es : List Decl) : f (ds ++ f es) = f (ds ++ es) := by
  rw [← hf.append ds (f es), hf.idem, hf.append]

/-- Two such operations that commute can be done one after the other. -/
theorem comp {g : List Decl -> List Decl} (hf : Piecewise f) (hg : Piecewise g)
    (comm : ∀ ds, g (f ds) = f (g ds)) : Piecewise fun ds => g (f ds) where
  nil := by rw [hf.nil, hg.nil]
  append ds es := by
    calc
      g (f (g (f ds) ++ g (f es))) = f (g (g (f ds) ++ g (f es))) := comm _
      _ = f (g (f ds ++ f es)) := by rw [hg.append]
      _ = g (f (f ds ++ f es)) := (comm _).symm
      _ = g (f (ds ++ es)) := by rw [hf.append]

end Piecewise

/-! ## Interfaces -/

theorem interface_of_isSome_key {d : Decl} (h : (interfaceFolding.key d).isSome) :
    ∃ i, d = .interface i := by
  cases d with
  | interface i => exact ⟨i, rfl⟩
  | _ => simp [interfaceFolding, Decl.interface?] at h

theorem interfaceFolding_associative : interfaceFolding.Associative := by
  intro d e f hde hef
  obtain ⟨i, rfl⟩ := interface_of_isSome_key (Folding.isSome_of_meets hde)
  obtain ⟨j, rfl⟩ := interface_of_isSome_key (Folding.isSome_of_meets hef)
  cases f with
  | interface k => simp [interfaceFolding, Interface.absorb]
  | _ => rfl

theorem piecewise_mergeInterfaces : Piecewise mergeInterfaces where
  nil := rfl
  append ds es := by
    simp only [mergeInterfaces_eq_gather]
    exact Folding.gather_append interfaceFolding_associative ds es

/-! ## One level of modules -/

theorem module_of_isSome_key {combine : List Decl -> List Decl} {d : Decl}
    (h : ((moduleFolding combine).key d).isSome) : ∃ m, d = .module m := by
  cases d with
  | module m => exact ⟨m, rfl⟩
  | _ => simp [moduleFolding, Decl.module?] at h

section

variable {combine : List Decl -> List Decl}

theorem moduleFolding_associative (hc : Piecewise combine) :
    (moduleFolding combine).Associative := by
  intro d e f hde hef
  obtain ⟨m, rfl⟩ := module_of_isSome_key (Folding.isSome_of_meets hde)
  obtain ⟨n, rfl⟩ := module_of_isSome_key (Folding.isSome_of_meets hef)
  cases f with
  | module o =>
      simp only [moduleFolding, hc.left, hc.right, List.append_assoc]
  | _ => simp [Folding.meets, moduleFolding, Decl.module?] at hef

/-- After a fold of modules, their entries are combined. -/
theorem mapEntries_of_mem_gather (hc : Piecewise combine) (ds : List Decl) :
    ∀ d ∈ (moduleFolding combine).gather (ds.map (Decl.mapEntries combine)),
      d.mapEntries combine = d := by
  refine Folding.forall_mem_gather ?_ ?_
  · intro d e hd _
    cases d with
    | module m =>
        cases e with
        | module n => simp only [moduleFolding, Decl.mapEntries, hc.idem]
        | _ => exact hd
    | _ => exact hd
  · intro d hd
    obtain ⟨e, _, rfl⟩ := List.mem_map.mp hd
    cases e with
    | module m => simp only [Decl.mapEntries, hc.idem]
    | _ => rfl

theorem map_mapEntries_gather (hc : Piecewise combine) (ds : List Decl) :
    ((moduleFolding combine).gather (ds.map (Decl.mapEntries combine))).map
        (Decl.mapEntries combine) =
      (moduleFolding combine).gather (ds.map (Decl.mapEntries combine)) := by
  rw [List.map_congr_left (mapEntries_of_mem_gather hc ds)]
  exact List.map_id _

theorem piecewise_foldModules (hc : Piecewise combine) :
    Piecewise fun ds => (moduleFolding combine).gather (ds.map (Decl.mapEntries combine)) where
  nil := by simp
  append ds es := by
    simp only [List.map_append, map_mapEntries_gather hc]
    exact Folding.gather_append (moduleFolding_associative hc) _ _

/-- No declaration is both an interface and a module. -/
theorem apart_interface_module : interfaceFolding.Apart (moduleFolding combine) := by
  intro d
  cases d with
  | interface i => exact .inr rfl
  | _ => exact .inl rfl

theorem mergeInterfaces_map_mapEntries (ds : List Decl) :
    mergeInterfaces (ds.map (Decl.mapEntries combine)) =
      (mergeInterfaces ds).map (Decl.mapEntries combine) := by
  simp only [mergeInterfaces_eq_gather]
  apply Folding.gather_map
  · intro d
    cases d <;> rfl
  · intro d e
    cases d with
    | interface i => cases e <;> rfl
    | module m => rfl
    | _ => rfl

end

/-! ## All levels -/

/-- Interfaces may be merged before or after modules. -/
theorem mergeInterfaces_mergeModulesTo (depth : Nat) (ds : List Decl) :
    mergeInterfaces (mergeModulesTo depth ds) = mergeModulesTo depth (mergeInterfaces ds) := by
  cases depth with
  | zero => rfl
  | succ depth =>
      rw [mergeModulesTo_succ, mergeModulesTo_succ, ← mergeInterfaces_map_mapEntries,
        mergeInterfaces_eq_gather, mergeInterfaces_eq_gather, apart_interface_module.gather_comm]

theorem piecewise_mergeEntriesTo {depth : Nat} (hm : Piecewise (mergeModulesTo depth)) :
    Piecewise (mergeEntriesTo depth) :=
  hm.comp piecewise_mergeInterfaces (mergeInterfaces_mergeModulesTo depth)

theorem piecewise_mergeModulesTo (depth : Nat) : Piecewise (mergeModulesTo depth) := by
  induction depth with
  | zero => exact ⟨rfl, fun _ _ => rfl⟩
  | succ depth ih =>
      have level := piecewise_foldModules (piecewise_mergeEntriesTo ih)
      simpa only [← mergeModulesTo_succ] using level

theorem piecewise_mergeModules : Piecewise mergeModules where
  nil := rfl
  append ds es := by
    -- All lists here are nested at most as deep as the two together.
    have hd : Decl.modulesDepth ds ≤ Decl.modulesDepth (ds ++ es) :=
      modulesDepth_le_iff.mpr fun d hd =>
        modulesDepth_le_iff.mp (Nat.le_refl _) d (List.mem_append_left es hd)
    have he : Decl.modulesDepth es ≤ Decl.modulesDepth (ds ++ es) :=
      modulesDepth_le_iff.mpr fun d hd =>
        modulesDepth_le_iff.mp (Nat.le_refl _) d (List.mem_append_right ds hd)
    have merged : Decl.modulesDepth (mergeModules ds ++ mergeModules es) ≤
        Decl.modulesDepth (ds ++ es) :=
      modulesDepth_append_le (Nat.le_trans (modulesDepth_mergeModules_le ds) hd)
        (Nat.le_trans (modulesDepth_mergeModules_le es) he)
    rw [← mergeModulesTo_of_le merged, ← mergeModulesTo_of_le hd, ← mergeModulesTo_of_le he,
      (piecewise_mergeModulesTo _).append, mergeModules]

theorem mergeInterfaces_mergeModules (ds : List Decl) :
    mergeInterfaces (mergeModules ds) = mergeModules (mergeInterfaces ds) := by
  have h : Decl.modulesDepth (mergeInterfaces ds) ≤ Decl.modulesDepth ds :=
    modulesDepth_mergeInterfaces_le (Nat.le_refl _)
  rw [← mergeModulesTo_of_le h]
  exact mergeInterfaces_mergeModulesTo _ ds

theorem piecewise_mergeEntries : Piecewise mergeEntries :=
  piecewise_mergeModules.comp piecewise_mergeInterfaces mergeInterfaces_mergeModules

/-! ## Groupings -/

/-- An order in which pieces are merged: a piece on its own, or parts that are
merged first and then with each other. Two parts at a time are a pairing, all
pieces as parts of one group are merged at once. -/
inductive Grouping where
  | piece (ds : List Decl)
  | group (parts : List Grouping)

mutual

def Grouping.merge (f : List Decl -> List Decl) : Grouping -> List Decl
  | .piece ds => f ds
  | .group parts => f (Grouping.mergeParts f parts)

/-- Merge parts, each on its own, and put the results one behind the other. -/
def Grouping.mergeParts (f : List Decl -> List Decl) : List Grouping -> List Decl
  | [] => []
  | g :: gs => g.merge f ++ Grouping.mergeParts f gs

end

mutual

def Grouping.contents : Grouping -> List Decl
  | .piece ds => ds
  | .group parts => Grouping.partsContents parts

def Grouping.partsContents : List Grouping -> List Decl
  | [] => []
  | g :: gs => g.contents ++ Grouping.partsContents gs

end

mutual

theorem Grouping.merge_eq {f : List Decl -> List Decl} (hf : Piecewise f) (g : Grouping) :
    g.merge f = f g.contents := by
  cases g with
  | piece ds => rw [Grouping.merge, Grouping.contents]
  | group parts =>
      rw [Grouping.merge, Grouping.contents]
      exact Grouping.mergeParts_eq hf parts

theorem Grouping.mergeParts_eq {f : List Decl -> List Decl} (hf : Piecewise f)
    (parts : List Grouping) :
    f (Grouping.mergeParts f parts) = f (Grouping.partsContents parts) := by
  cases parts with
  | nil => rw [Grouping.mergeParts, Grouping.partsContents]
  | cons g gs =>
      rw [Grouping.mergeParts, Grouping.partsContents, Grouping.merge_eq hf g, hf.left,
        ← hf.right, Grouping.mergeParts_eq hf gs, hf.right]

end

/-- Merging already merged pieces, in any grouping, gives the tree that merging
all of them at once gives; in particular merging twice is merging once. -/
theorem merge_pieces_eq_merge_whole :
    (∀ ds es, mergeEntries (mergeEntries ds ++ mergeEntries es) = mergeEntries (ds ++ es)) ∧
    (∀ ds es, mergeModules (mergeModules ds ++ mergeModules es) = mergeModules (ds ++ es)) ∧
    (∀ g : Grouping, g.merge mergeEntries = mergeEntries g.contents) ∧
    (∀ g : Grouping, g.merge mergeModules = mergeModules g.contents) ∧
    (∀ ds, mergeEntries (mergeEntries ds) = mergeEntries ds) ∧
    (∀ ds, mergeModules (mergeModules ds) = mergeModules ds) :=
  ⟨piecewise_mergeEntries.append, piecewise_mergeModules.append,
    Grouping.merge_eq piecewise_mergeEntries, Grouping.merge_eq piecewise_mergeModules,
    piecewise_mergeEntries.idem, piecewise_mergeModules.idem⟩

end Bindgen
