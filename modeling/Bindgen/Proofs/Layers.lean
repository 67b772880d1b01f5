import Bindgen.Proofs.Heads
import Bindgen.Proofs.Parts

/-! # Layered files

In a layered file interfaces, aliases and modules stand only directly in
modules, and type parameters are names. The passes up to the escaping of names
keep a file layered.
-/

namespace Bindgen

def Decl.isTopLevel : Decl -> Bool
  | .interface _ => true
  | .typeAlias _ => true
  | .module _ => true
  | _ => false

def Decl.typeParams : Decl -> List Decl
  | .interface i => i.typeParams
  | .function s => s.typeParams
  | .typeAlias a => a.typeParams
  | _ => []

structure Decl.Layered (d : Decl) : Prop where
  inside : d.module? = none -> ∀ c ∈ d.children, c.isTopLevel = false
  typeParams : ∀ p ∈ d.typeParams, ∃ name, p = .named name

/-- Nothing but a module holds an interface, an alias or a module, and all type
parameters are names. -/
def File.Layered (f : File) : Prop :=
  ∀ d ∈ f.parts, d.Layered

/-! ## Rebuilding -/

def Head.isTopLevel : Head -> Bool
  | .interface _ _ _ => true
  | .typeAlias _ => true
  | .module _ => true
  | _ => false

theorem Decl.isTopLevel_head (d : Decl) : d.head.isTopLevel = d.isTopLevel := by
  cases d <;> rfl

section

variable {w : Rewriting} {act : Head -> Head}

theorem Decl.isTopLevel_rewrite (hw : w.ActsOn act)
    (top : ∀ h, (act h).isTopLevel = h.isTopLevel) (d : Decl) :
    (d.rewrite w).isTopLevel = d.isTopLevel := by
  rw [← Decl.isTopLevel_head, Decl.head_rewrite hw, top, Decl.isTopLevel_head]

theorem Decl.Layered.rebuild (hw : w.ActsOn act)
    (top : ∀ h, (act h).isTopLevel = h.isTopLevel)
    (named : ∀ name, ∃ spelling, w.apply (.named name) = .named spelling)
    {d : Decl} (h : d.Layered) : (d.rebuild w).Layered := by
  have isModule : (d.rebuild w).module? = none -> d.module? = none := by
    cases d <;> simp [Decl.rebuild, Decl.module?]
  have typeParams : (d.rebuild w).typeParams = d.typeParams.map (Decl.rewrite w) := by
    cases d <;> rfl
  constructor
  · intro notModule c hc
    rw [Decl.children_rebuild] at hc
    obtain ⟨before, hbefore, rfl⟩ := List.mem_map.mp hc
    rw [Decl.isTopLevel_rewrite hw top]
    exact h.inside (isModule notModule) before hbefore
  · intro p hp
    rw [typeParams] at hp
    obtain ⟨before, hbefore, rfl⟩ := List.mem_map.mp hp
    obtain ⟨name, rfl⟩ := h.typeParams before hbefore
    exact named name

theorem Rewriting.KeepsHeads.keeps_layered (hw : w.KeepsHeads)
    (named : ∀ name, ∃ spelling, w.apply (.named name) = .named spelling)
    (apply : ∀ d, d.Every Decl.Layered -> (w.apply d).Every Decl.Layered) :
    w.Keeps Decl.Layered where
  rebuild _ h := h.rebuild hw (fun _ => rfl) named
  apply := apply

end

/-! ## The passes -/

theorem Module.every_layered {m : Module} (h : ∀ d ∈ m.entries, d.Every Decl.Layered) :
    (Decl.module m).Every Decl.Layered :=
  Decl.every_iff.mpr ⟨⟨nofun, by simp [Decl.typeParams]⟩, h⟩

/-- A declaration with the same children and the same type parameters. -/
theorem Decl.Every.layered_of_same {d e : Decl} (h : d.Every Decl.Layered)
    (module? : e.module? = none -> d.module? = none) (children : e.children = d.children)
    (typeParams : e.typeParams = d.typeParams) : e.Every Decl.Layered := by
  refine Decl.every_iff.mpr ⟨⟨?_, ?_⟩, ?_⟩
  · intro notModule
    rw [children]
    exact h.self.inside (module? notModule)
  · rw [typeParams]
    exact h.self.typeParams
  · rw [children]
    exact fun c hc => h.child hc

/-- An interface with other members. -/
theorem Decl.Every.layered_members {i : Interface} (h : (Decl.interface i).Every Decl.Layered)
    {members : List Decl} (hm : ∀ c ∈ members, c.isTopLevel = false ∧ c.Every Decl.Layered) :
    (Decl.interface { i with members }).Every Decl.Layered := by
  refine Decl.every_iff.mpr ⟨⟨?_, h.self.typeParams⟩, ?_⟩
  · intro _ c hc
    rcases List.mem_append.mp hc with hc | hc
    · exact h.self.inside rfl c (List.mem_append_left _ hc)
    · exact (hm c hc).1
  · intro c hc
    rcases List.mem_append.mp hc with hc | hc
    · exact h.child (List.mem_append_left _ hc)
    · exact (hm c hc).2

theorem Decl.Every.layered_member {i : Interface} (h : (Decl.interface i).Every Decl.Layered)
    {m : Decl} (hm : m ∈ i.members) : m.isTopLevel = false ∧ m.Every Decl.Layered := by
  have child : m ∈ (Decl.interface i).children := List.mem_append_right _ hm
  exact ⟨h.self.inside rfl m child, h.child child⟩

theorem Interface.layered_selfType {i : Interface} (h : (Decl.interface i).Every Decl.Layered) :
    i.selfType.Every Decl.Layered := by
  have param : ∀ p ∈ i.typeParams, p ∈ (Decl.interface i).children := fun p hp =>
    List.mem_append_left _ (List.mem_append_left _ hp)
  refine Decl.every_iff.mpr ⟨⟨?_, by simp [Interface.selfType, Decl.typeParams]⟩, ?_⟩
  · intro _ c hc
    rcases List.mem_cons.mp hc with rfl | hc
    · rfl
    · exact h.self.inside rfl c (param c hc)
  · intro c hc
    rcases List.mem_cons.mp hc with rfl | hc
    · exact Decl.every_named ⟨by simp [Decl.children], by simp [Decl.typeParams]⟩
    · exact h.child (param c hc)

theorem Decl.Every.layered_resultOf {m type : Decl} (h : m.Every Decl.Layered)
    (htype : type.Every Decl.Layered) (plain : type.isTopLevel = false) :
    (Decl.resultOf type m).Every Decl.Layered := by
  refine h.resultOf ?_ htype
  intro s layered
  refine ⟨fun _ c hc => ?_, layered.typeParams⟩
  rcases List.mem_append.mp hc with hc | hc
  · exact layered.inside rfl c (List.mem_append_left _ hc)
  · rw [List.mem_singleton.mp hc]
    exact plain

theorem Decl.isTopLevel_resultOf (type m : Decl) :
    (Decl.resultOf type m).isTopLevel = m.isTopLevel := by
  cases m with
  | function s =>
      simp only [Decl.resultOf]
      split <;> rfl
  | _ => rfl

namespace Rewriting

theorem resolveSelf_keeps_layered : resolveSelf.Keeps Decl.Layered := by
  refine resolveSelf_keepsHeads.keeps_layered (fun name => ⟨name, rfl⟩) ?_
  intro d h
  cases d with
  | interface i =>
      refine h.layered_members ?_
      intro c hc
      obtain ⟨m, hm, rfl⟩ := List.mem_map.mp hc
      obtain ⟨plain, layered⟩ := h.layered_member hm
      exact ⟨by rw [Decl.isTopLevel_resultOf, plain],
        layered.layered_resultOf (Interface.layered_selfType h) rfl⟩
  | _ => exact h

theorem collapseArrays_keeps_layered (marker : String) :
    (collapseArrays marker).Keeps Decl.Layered := by
  refine (collapseArrays_keepsHeads marker).keeps_layered (fun name => ⟨name, rfl⟩) ?_
  intro d h
  simp only [collapseArrays, ofTypes]
  unfold Decl.collapseArray
  split
  case h_1 name element =>
      split
      · have child : element ∈ (Decl.generic (.named name) [element]).children := by
          simp [Decl.children]
        refine Decl.every_iff.mpr ⟨⟨?_, by simp [Decl.typeParams]⟩, ?_⟩
        · intro _ c hc
          rw [List.mem_singleton.mp hc]
          exact h.self.inside rfl element child
        · intro c hc
          rw [List.mem_singleton.mp hc]
          exact h.child child
      · exact h
  case h_2 => exact h

theorem renameDates_keeps_layered : renameDates.Keeps Decl.Layered := by
  refine renameDates_keepsHeads.keeps_layered (fun name => ⟨_, rfl⟩) ?_
  intro d h
  cases d with
  | named name => exact h.layered_of_same (fun _ => rfl) rfl rfl
  | _ => exact h

theorem splitStatics_keeps_layered (suffix : String) :
    (splitStatics suffix).Keeps Decl.Layered := by
  refine (splitStatics_keepsHeads suffix).keeps_layered (fun name => ⟨name, rfl⟩) ?_
  intro d h
  cases d with
  | module m =>
      refine Module.every_layered ?_
      intro e he
      obtain ⟨entry, hentry, he⟩ := List.mem_flatMap.mp he
      refine (h.child hentry).splitStatic ?_ he
      intro i j hj layered
      refine ⟨fun _ c hc => layered.inside rfl c (hj.children c hc), ?_⟩
      intro p hp
      have hp : p ∈ i.typeParams := by rwa [← hj.typeParams]
      exact layered.typeParams p hp
  | _ => exact h

end Rewriting

theorem Decl.Every.layered_exported {suffix : String} {d e : Decl} (h : d.Every Decl.Layered)
    (he : d.exported? suffix = some e) : e.isTopLevel = false ∧ e.Every Decl.Layered := by
  cases d with
  | var v =>
      cases he
      exact ⟨rfl, h⟩
  | function s =>
      cases he
      exact ⟨rfl, h⟩
  | interface i =>
      simp only [Decl.exported?] at he
      split at he
      · cases he
        refine ⟨rfl, Decl.every_iff.mpr ⟨⟨?_, by simp [Decl.typeParams]⟩, ?_⟩⟩
        · simp [Decl.children, Interface.accessor, Decl.isTopLevel]
        · simp only [Decl.children, Interface.accessor, Option.map_none, Option.toList_none,
            List.nil_append, List.mem_singleton, forall_eq]
          exact Decl.every_named ⟨by simp [Decl.children], by simp [Decl.typeParams]⟩
      · cases he
  | _ => cases he

namespace Rewriting

theorem addExports_keeps_layered (name suffix : String) :
    (addExports name suffix).Keeps Decl.Layered := by
  refine (addExports_keepsHeads name suffix).keeps_layered (fun name => ⟨name, rfl⟩) ?_
  intro d h
  cases d with
  | module m =>
      refine Module.every_layered ?_
      intro e he
      unfold withExports at he
      split at he
      · exact h.child he
      · rcases List.mem_cons.mp he with rfl | he
        · -- The exports interface binds nothing, and its members come from the entries.
          have member : ∀ c ∈ m.entries.filterMap (Decl.exported? suffix),
              c.isTopLevel = false ∧ c.Every Decl.Layered := by
            intro c hc
            obtain ⟨entry, hentry, exported⟩ := List.mem_filterMap.mp hc
            exact (h.child hentry).layered_exported exported
          refine Decl.every_iff.mpr ⟨⟨fun _ c hc => (member c hc).1, ?_⟩,
            fun c hc => (member c hc).2⟩
          simp [Decl.typeParams, exportsInterface]
        · exact h.child he
  | _ => exact h

theorem escapeNames_keeps_layered : escapeNames.Keeps Decl.Layered where
  rebuild _ h := h.rebuild escapeNames_actsOn (fun h => by cases h <;> rfl) fun name => ⟨_, rfl⟩
  apply d h := by
    cases d with
    | module m => exact h.layered_of_same nofun rfl rfl
    | _ => exact h.layered_of_same (fun _ => rfl) rfl rfl

end Rewriting

theorem Module.layered_settledImports (settings : Settings) (path : List String) {m : Module}
    (h : (Decl.module m).Every Decl.Layered) :
    (Decl.module (m.settledImports settings path)).Every Decl.Layered := by
  refine h.settledImports ?_ ?_ settings path
  · exact fun i => ⟨by simp [Decl.children], by simp [Decl.typeParams]⟩
  · exact fun _ _ _ => ⟨by rintro ⟨⟩, by simp [Decl.typeParams]⟩

end Bindgen
