import Bindgen.Proofs.Passes

/-! # Parts of a declaration

The children of a declaration are what a transformation visits right before
it, and its parts are the declarations at all depths, children before parents.
What holds of every part is proved by induction on children. For a rewriting
it is enough to look at one declaration whose children have been rewritten.
-/

namespace Bindgen

/-! ## The parts of a record are smaller -/

theorem Interface.sizeOf_lt_of_mem {c : Decl} (i : Interface)
    (h : c ∈ i.typeParams ++ i.inherits ++ i.members) :
    sizeOf c < sizeOf (Decl.interface i) := by
  obtain ⟨isStatic, name, typeParams, inherits, members⟩ := i
  simp only [List.mem_append] at h
  rw [Decl.interface.sizeOf_spec, Interface.mk.sizeOf_spec]
  rcases h with (h | h) | h <;> have := List.sizeOf_lt_of_mem h <;> omega

theorem Param.sizeOf_lt_of_mem {c : Decl} (p : Param) (h : c ∈ [p.type]) :
    sizeOf c < sizeOf (Decl.param p) := by
  obtain ⟨name, optional, isRest, type⟩ := p
  simp only [List.mem_singleton] at h
  rw [h, Decl.param.sizeOf_spec, Param.mk.sizeOf_spec]
  omega

theorem Property.sizeOf_lt_of_mem {c : Decl} (p : Property)
    (h : c ∈ (p.index.map Decl.param).toList ++ [p.type]) :
    sizeOf c < sizeOf (Decl.property p) := by
  obtain ⟨emit, isStatic, index, name, optional, type⟩ := p
  simp only [List.mem_append, Option.mem_toList, List.mem_singleton,
    Option.map_eq_some_iff] at h
  rw [Decl.property.sizeOf_spec, Property.mk.sizeOf_spec]
  rcases h with ⟨q, rfl, rfl⟩ | rfl
  · rw [Decl.param.sizeOf_spec, Option.some.sizeOf_spec]
    omega
  · omega

theorem Signature.sizeOf_lt_of_mem {c : Decl} (s : Signature)
    (h : c ∈ s.typeParams ++ s.params.map Decl.param ++ [s.result]) :
    sizeOf c < sizeOf (Decl.function s) := by
  obtain ⟨emit, isStatic, name, typeParams, params, result⟩ := s
  simp only [List.mem_append, List.mem_singleton, List.mem_map] at h
  rw [Decl.function.sizeOf_spec, Signature.mk.sizeOf_spec]
  rcases h with (h | ⟨p, h, rfl⟩) | rfl
  · have := List.sizeOf_lt_of_mem h
    omega
  · have := List.sizeOf_lt_of_mem h
    rw [Decl.param.sizeOf_spec]
    omega
  · omega

theorem Alias.sizeOf_lt_of_mem {c : Decl} (a : Alias) (h : c ∈ a.type :: a.typeParams) :
    sizeOf c < sizeOf (Decl.typeAlias a) := by
  obtain ⟨name, type, typeParams⟩ := a
  simp only [List.mem_cons] at h
  rw [Decl.typeAlias.sizeOf_spec, Alias.mk.sizeOf_spec]
  rcases h with rfl | h
  · omega
  · have := List.sizeOf_lt_of_mem h
    omega

theorem Variable.sizeOf_lt_of_mem {c : Decl} (v : Variable) (h : c ∈ [v.type]) :
    sizeOf c < sizeOf (Decl.var v) := by
  obtain ⟨declared, name, type⟩ := v
  simp only [List.mem_singleton] at h
  rw [h, Decl.var.sizeOf_spec, Variable.mk.sizeOf_spec]
  omega

theorem Module.sizeOf_lt_of_mem {c : Decl} (m : Module) (h : c ∈ m.entries) :
    sizeOf c < sizeOf (Decl.module m) := by
  obtain ⟨name, entries⟩ := m
  have : sizeOf c < sizeOf entries := List.sizeOf_lt_of_mem h
  rw [Decl.module.sizeOf_spec, Module.mk.sizeOf_spec]
  omega

theorem File.sizeOf_lt_of_mem {c : Decl} (f : File) (h : c ∈ f.modules.map Decl.module) :
    sizeOf c < sizeOf (Decl.file f) := by
  obtain ⟨name, opens, modules⟩ := f
  simp only [List.mem_map] at h
  obtain ⟨m, h, rfl⟩ := h
  have := List.sizeOf_lt_of_mem h
  rw [Decl.file.sizeOf_spec, File.mk.sizeOf_spec, Decl.module.sizeOf_spec]
  omega

/-! ## All parts of a declaration -/

namespace Decl

/-- The declarations directly in another one, in the order of transformation. -/
def children : Decl -> List Decl
  | .interface i => i.typeParams ++ i.inherits ++ i.members
  | .property p => (p.index.map Decl.param).toList ++ [p.type]
  | .param p => [p.type]
  | .array element => [element]
  | .function s => s.typeParams ++ s.params.map Decl.param ++ [s.result]
  | .union _ alternatives => alternatives
  | .typeAlias a => a.type :: a.typeParams
  | .generic base arguments => base :: arguments
  | .tuple elements => elements
  | .module m => m.entries
  | .file f => f.modules.map Decl.module
  | .var v => [v.type]
  | _ => []

theorem sizeOf_lt_of_mem_children {c d : Decl} (h : c ∈ d.children) : sizeOf c < sizeOf d := by
  cases d with
  | interface i => exact i.sizeOf_lt_of_mem h
  | property p => exact p.sizeOf_lt_of_mem h
  | param p => exact p.sizeOf_lt_of_mem h
  | array element =>
      rw [List.mem_singleton.mp h, array.sizeOf_spec]
      omega
  | function s => exact s.sizeOf_lt_of_mem h
  | union optional alternatives =>
      have : sizeOf c < sizeOf alternatives := List.sizeOf_lt_of_mem h
      rw [union.sizeOf_spec]
      omega
  | typeAlias a => exact a.sizeOf_lt_of_mem h
  | generic base arguments =>
      rw [generic.sizeOf_spec]
      rcases List.mem_cons.mp h with rfl | h
      · omega
      · have := List.sizeOf_lt_of_mem h
        omega
  | tuple elements =>
      have : sizeOf c < sizeOf elements := List.sizeOf_lt_of_mem h
      rw [tuple.sizeOf_spec]
      omega
  | module m => exact m.sizeOf_lt_of_mem h
  | file f => exact f.sizeOf_lt_of_mem h
  | var v => exact v.sizeOf_lt_of_mem h
  | _ => simp [children] at h

theorem children_induction {P : Decl -> Prop} (step : ∀ d, (∀ c ∈ d.children, P c) -> P d)
    (d : Decl) : P d :=
  step d fun c _h => children_induction step c
termination_by sizeOf d
decreasing_by exact sizeOf_lt_of_mem_children _h

/-- All declarations in a declaration, itself last. -/
def parts (d : Decl) : List Decl :=
  (d.children.attach.flatMap fun ⟨c, _h⟩ => c.parts) ++ [d]
termination_by sizeOf d
decreasing_by exact sizeOf_lt_of_mem_children _h

theorem parts_eq (d : Decl) : d.parts = d.children.flatMap parts ++ [d] := by
  rw [parts]
  simp

def Every (P : Decl -> Prop) (d : Decl) : Prop :=
  ∀ e ∈ d.parts, P e

section

variable {P Q : Decl -> Prop} {d : Decl}

theorem every_iff : d.Every P ↔ P d ∧ ∀ c ∈ d.children, c.Every P := by
  unfold Every
  rw [parts_eq]
  constructor
  · intro h
    refine ⟨h d (by simp), ?_⟩
    intro c hc e he
    exact h e (List.mem_append_left _ (List.mem_flatMap.mpr ⟨c, hc, he⟩))
  · rintro ⟨whole, inside⟩ e he
    rcases List.mem_append.mp he with he | he
    · obtain ⟨c, hc, he⟩ := List.mem_flatMap.mp he
      exact inside c hc e he
    · rw [List.mem_singleton.mp he]
      exact whole

theorem Every.self (h : d.Every P) : P d :=
  (every_iff.mp h).1

theorem Every.child (h : d.Every P) {c : Decl} (hc : c ∈ d.children) : c.Every P :=
  (every_iff.mp h).2 c hc

theorem Every.mono (h : d.Every P) (hPQ : ∀ e, P e -> Q e) : d.Every Q :=
  fun e he => hPQ e (h e he)

theorem every_named {name : String} (h : P (.named name)) : (Decl.named name).Every P :=
  every_iff.mpr ⟨h, by simp [children]⟩

/-- A declaration with nothing in it but children of another one. -/
theorem Every.of_children {e : Decl} (h : d.Every P) (he : P e)
    (children : ∀ c ∈ e.children, c ∈ d.children) : e.Every P :=
  every_iff.mpr ⟨he, fun c hc => h.child (children c hc)⟩

/-- What holds of all parts holds of the children of all parts. -/
theorem Every.with_children (h : d.Every P) :
    d.Every fun e => P e ∧ ∀ c ∈ e.children, P c := by
  induction d using children_induction with
  | step d ih =>
      refine every_iff.mpr ⟨⟨h.self, fun c hc => (h.child hc).self⟩, ?_⟩
      exact fun c hc => ih c hc (h.child hc)

end

end Decl

def File.parts (f : File) : List Decl :=
  f.modules.flatMap fun m => (Decl.module m).parts

theorem File.forall_mem_parts {P : Decl -> Prop} {f : File} :
    (∀ d ∈ f.parts, P d) ↔ ∀ m ∈ f.modules, (Decl.module m).Every P := by
  constructor
  · intro h m hm d hd
    exact h d (List.mem_flatMap.mpr ⟨m, hm, hd⟩)
  · intro h d hd
    obtain ⟨m, hm, hd⟩ := List.mem_flatMap.mp hd
    exact h m hm d hd

/-! ## Parts of what is rewritten -/

section

variable {w : Rewriting} {P Q : Decl -> Prop}

theorem Decl.rewrite_param (p : Param) : (Decl.param p).rewrite w = .param (p.rewrite w) := by
  rw [Decl.rewrite_eq_apply, Decl.rebuild, w.apply_param, Param.rewrite]

/-- Rebuilding a declaration rewrites its children and adds none. -/
theorem Decl.children_rebuild (d : Decl) :
    (d.rebuild w).children = d.children.map (Decl.rewrite w) := by
  cases d with
  | property p =>
      obtain ⟨emit, isStatic, index, name, optional, type⟩ := p
      cases index with
      | none => simp [Decl.rebuild, Decl.children]
      | some q => simp [Decl.rebuild, Decl.children, Decl.rewrite_param]
  | function s => simp [Decl.rebuild, Decl.children, Decl.rewrite_param]
  | file f => simp [Decl.rebuild, Decl.children, Decl.rewrite_module]
  | _ => simp [Decl.rebuild, Decl.children]

theorem Decl.Every.rewrite
    (step : ∀ d, P d -> (∀ c ∈ (d.rebuild w).children, c.Every Q) ->
      (w.apply (d.rebuild w)).Every Q)
    {d : Decl} (h : d.Every P) : (d.rewrite w).Every Q := by
  induction d using Decl.children_induction with
  | step d ih =>
      rw [Decl.rewrite_eq_apply]
      apply step d h.self
      intro c hc
      rw [Decl.children_rebuild] at hc
      obtain ⟨before, hbefore, rfl⟩ := List.mem_map.mp hc
      exact ih before hbefore (h.child hbefore)

/-- Rebuilding a declaration keeps the property, and so does the function itself
where all parts have it. -/
structure Rewriting.Keeps (w : Rewriting) (P : Decl -> Prop) : Prop where
  rebuild : ∀ d, P d -> P (d.rebuild w)
  apply : ∀ d, d.Every P -> (w.apply d).Every P

theorem Decl.Every.rewrite_of_keeps (hw : w.Keeps P) {d : Decl} (h : d.Every P) :
    (d.rewrite w).Every P :=
  h.rewrite fun d hd inside => hw.apply _ (Decl.every_iff.mpr ⟨hw.rebuild d hd, inside⟩)

theorem Decl.Every.rewriteModule_of_keeps (hw : w.Keeps P) {m : Module}
    (h : (Decl.module m).Every P) : (Decl.module (m.rewrite w)).Every P := by
  rw [← Decl.rewrite_module]
  exact h.rewrite_of_keeps hw

/-- The function puts nothing into a declaration that was not in it. -/
def Rewriting.Shrinks (w : Rewriting) : Prop :=
  ∀ d, ∀ c ∈ (w.apply d).children, c ∈ d.children

theorem Rewriting.Shrinks.keeps (hw : w.Shrinks) (rebuild : ∀ d, P d -> P (d.rebuild w))
    (apply : ∀ d, P d -> P (w.apply d)) : w.Keeps P where
  rebuild := rebuild
  apply d h := h.of_children (apply d h.self) (hw d)

theorem Decl.Every.rewrite_of_shrinks (hw : w.Shrinks)
    (self : ∀ d, P d -> Q (w.apply (d.rebuild w))) {d : Decl} (h : d.Every P) :
    (d.rewrite w).Every Q :=
  h.rewrite fun d hd inside =>
    Decl.every_iff.mpr ⟨self d hd, fun c hc => inside c (hw _ c hc)⟩

end

/-! ## Parts of what is imported, resolved, split and quoted -/

theorem Decl.Every.importedAt {P : Decl -> Prop} (imported : ∀ i, P (.imported i))
    (module : ∀ path m, P (.module m) ->
      P (.module { m with entries := m.entries.map (Decl.importedAt path) }))
    (path : List String) {d : Decl} (h : d.Every P) : (d.importedAt path).Every P := by
  induction d using Decl.children_induction generalizing path with
  | step d ih =>
      have leaf : ∀ i, (Decl.imported i).Every P := fun i =>
        Decl.every_iff.mpr ⟨imported i, by simp [Decl.children]⟩
      cases d with
      | module m =>
          obtain ⟨name, entries⟩ := m
          rw [Decl.importedAt, Decl.allImportedAt_eq_map]
          refine Decl.every_iff.mpr ⟨module _ _ h.self, ?_⟩
          exact List.forall_mem_map.mpr fun e he => ih e he _ (h.child he)
      | imported i => exact leaf _
      | var v =>
          obtain ⟨declared, name, type⟩ := v
          rw [Decl.importedAt]
          split
          · exact leaf _
          · exact h
      | _ => exact h

theorem Decl.Every.settledImports {P : Decl -> Prop} (imported : ∀ i, P (.imported i))
    (module : ∀ path m, P (.module m) ->
      P (.module { m with entries := m.entries.map (Decl.importedAt path) }))
    (settings : Settings) (path : List String) {m : Module} (h : (Decl.module m).Every P) :
    (Decl.module (m.settledImports settings path)).Every P := by
  unfold Module.settledImports
  split
  · have whole := h.importedAt imported module path
    cases m
    rwa [Decl.importedAt, Decl.allImportedAt_eq_map] at whole
  · exact h

theorem Decl.Every.mapMembers {P : Decl -> Prop} {i : Interface} {g : Decl -> Decl}
    (h : (Decl.interface i).Every P)
    (self : P (.interface { i with members := i.members.map g }))
    (each : ∀ d, d.Every P -> (g d).Every P) :
    (Decl.interface { i with members := i.members.map g }).Every P := by
  refine Decl.every_iff.mpr ⟨self, ?_⟩
  intro c hc
  rcases List.mem_append.mp hc with hc | hc
  · exact h.child (List.mem_append_left _ hc)
  · obtain ⟨m, hm, rfl⟩ := List.mem_map.mp hc
    exact each m (h.child (List.mem_append_right _ hm))

theorem Decl.Every.resultOf {P : Decl -> Prop} {type : Decl}
    (function : ∀ s, P (.function s) -> P (.function { s with result := type }))
    {d : Decl} (h : d.Every P) (htype : type.Every P) : (Decl.resultOf type d).Every P := by
  cases d with
  | function s =>
      simp only [Decl.resultOf]
      split
      · refine Decl.every_iff.mpr ⟨function s h.self, ?_⟩
        intro c hc
        rcases List.mem_append.mp hc with hc | hc
        · exact h.child (List.mem_append_left _ hc)
        · rw [List.mem_singleton.mp hc]
          exact htype
      · exact h
  | _ => exact h

/-- The interface binds the same names, and has nothing but what is in the other
one. -/
structure Interface.PartOf (j i : Interface) : Prop where
  typeParams : j.typeParams = i.typeParams
  inherits : ∀ c ∈ j.inherits, c ∈ i.inherits
  members : ∀ c ∈ j.members, c ∈ i.members

theorem Interface.PartOf.children {i j : Interface} (h : j.PartOf i) :
    ∀ c ∈ (Decl.interface j).children, c ∈ (Decl.interface i).children := by
  intro c hc
  simp only [Decl.children, List.mem_append, h.typeParams] at hc ⊢
  exact hc.imp (.imp_right (h.inherits c)) (h.members c)

theorem Decl.Every.splitStatic {P : Decl -> Prop}
    (part : ∀ {i j : Interface}, j.PartOf i -> P (.interface i) -> P (.interface j))
    {suffix : String} {d e : Decl} (h : d.Every P) (he : e ∈ Decl.splitStatic suffix d) :
    e.Every P := by
  cases d with
  | interface i =>
      have piece : ∀ {j : Interface}, j.PartOf i -> (Decl.interface j).Every P := fun hj =>
        h.of_children (part hj h.self) hj.children
      simp only [Decl.splitStatic] at he
      split at he
      · rw [List.mem_singleton.mp he]
        exact h
      · rcases List.mem_cons.mp he with rfl | he
        · exact piece ⟨rfl, fun _ => id, fun _ hc => (List.mem_filter.mp hc).1⟩
        · rw [List.mem_singleton.mp he]
          exact piece ⟨rfl, fun _ hc => absurd hc List.not_mem_nil,
            fun _ hc => (List.mem_filter.mp hc).1⟩
  | _ =>
      rw [List.mem_singleton.mp he]
      exact h

section

variable {P : Decl -> Prop} (keeps : ∀ bound, (Rewriting.quoteNames bound).Keeps P)

include keeps

theorem Decl.Every.quoted {d : Decl} (h : d.Every P) (typeParams : List Decl) :
    (d.quoted typeParams).Every P := by
  unfold Decl.quoted
  split
  · exact h
  · exact h.rewrite_of_keeps (keeps _)

theorem Decl.Every.quotedFunction {d : Decl} (h : d.Every P) : d.quotedFunction.Every P := by
  cases d with
  | function s => exact h.quoted keeps s.typeParams
  | _ => exact h

end

/-! ## Rewriting twice -/

/-- What the function makes of a parameter, if that is a parameter. -/
def Param.via (f : Decl -> Decl) (p : Param) : Param :=
  match f (.param p) with
  | .param q => q
  | _ => p

def Module.via (f : Decl -> Decl) (m : Module) : Module :=
  match f (.module m) with
  | .module n => n
  | _ => m

def Decl.mapChildren (f : Decl -> Decl) : Decl -> Decl
  | .interface i =>
    .interface { i with
      typeParams := i.typeParams.map f
      inherits := i.inherits.map f
      members := i.members.map f }
  | .property p => .property { p with index := p.index.map (Param.via f), type := f p.type }
  | .param p => .param { p with type := f p.type }
  | .array element => .array (f element)
  | .function s =>
    .function { s with
      typeParams := s.typeParams.map f
      params := s.params.map (Param.via f)
      result := f s.result }
  | .union optional alternatives => .union optional (alternatives.map f)
  | .typeAlias a => .typeAlias { a with type := f a.type, typeParams := a.typeParams.map f }
  | .generic base arguments => .generic (f base) (arguments.map f)
  | .tuple elements => .tuple (elements.map f)
  | .module m => .module { m with entries := m.entries.map f }
  | .file g => .file { g with modules := g.modules.map (Module.via f) }
  | .var v => .var { v with type := f v.type }
  | d => d

section

variable {w v : Rewriting} {f g : Decl -> Decl}

theorem Param.via_rewrite (p : Param) : Param.via (Decl.rewrite w) p = p.rewrite w := by
  rw [Param.via, Decl.rewrite_param]

theorem Module.via_rewrite (m : Module) : Module.via (Decl.rewrite w) m = m.rewrite w := by
  rw [Module.via, Decl.rewrite_module]

theorem Decl.rebuild_eq_mapChildren (d : Decl) :
    d.rebuild w = d.mapChildren (Decl.rewrite w) := by
  have params : Param.via (Decl.rewrite w) = Param.rewrite w := funext Param.via_rewrite
  have modules : Module.via (Decl.rewrite w) = Module.rewrite w := funext Module.via_rewrite
  cases d <;> simp only [Decl.rebuild, Decl.mapChildren, params, modules]

theorem Decl.mapChildren_congr {d : Decl} (h : ∀ c ∈ d.children, f c = g c) :
    d.mapChildren f = d.mapChildren g := by
  have param : ∀ p : Param, f (.param p) = g (.param p) -> Param.via f p = Param.via g p := by
    intro p hp
    rw [Param.via, Param.via, hp]
  have module : ∀ m : Module, f (.module m) = g (.module m) -> Module.via f m = Module.via g m := by
    intro m hm
    rw [Module.via, Module.via, hm]
  cases d with
  | property p =>
      obtain ⟨emit, isStatic, index, name, optional, type⟩ := p
      cases index <;> simp_all [Decl.mapChildren, Decl.children]
  | _ => simp_all [Decl.mapChildren, Decl.children]

theorem Decl.mapChildren_id (d : Decl) : d.mapChildren id = d := by
  have params : Param.via id = id := rfl
  have modules : Module.via id = id := rfl
  cases d with
  | interface i => cases i; simp [Decl.mapChildren]
  | property p => cases p; simp [Decl.mapChildren, params]
  | param p => cases p; rfl
  | function s => cases s; simp [Decl.mapChildren, params]
  | typeAlias a => cases a; simp [Decl.mapChildren]
  | module m => cases m; simp [Decl.mapChildren]
  | file g => cases g; simp [Decl.mapChildren, modules]
  | var v => cases v; rfl
  | _ => simp [Decl.mapChildren]

theorem Decl.rebuild_rebuild (d : Decl) :
    (d.rebuild w).rebuild v = d.mapChildren fun c => (c.rewrite w).rewrite v := by
  have params : Param.via (fun c => (c.rewrite w).rewrite v) =
      fun p => (p.rewrite w).rewrite v := by
    funext p
    simp only [Param.via, Decl.rewrite_param]
  have modules : Module.via (fun c => (c.rewrite w).rewrite v) =
      fun m => (m.rewrite w).rewrite v := by
    funext m
    simp only [Module.via, Decl.rewrite_module]
  cases d <;>
    simp only [Decl.rebuild, Decl.mapChildren, params, modules, List.map_map, Option.map_map,
      Function.comp_def]

theorem Decl.rebuild_eq_self {d : Decl} (h : ∀ c ∈ d.children, c.rewrite w = c) :
    d.rebuild w = d := by
  have same : ∀ c ∈ d.children, c.rewrite w = id c := h
  rw [Decl.rebuild_eq_mapChildren, Decl.mapChildren_congr same, Decl.mapChildren_id]

/-- A rewriting that leaves every part alone changes nothing. -/
theorem Decl.rewrite_eq_self {d : Decl} (h : d.Every fun e => w.apply e = e) :
    d.rewrite w = d := by
  induction d using Decl.children_induction with
  | step d ih =>
      have inside : ∀ c ∈ d.children, c.rewrite w = c := fun c hc => ih c hc (h.child hc)
      rw [Decl.rewrite_eq_apply, Decl.rebuild_eq_self inside, h.self]

end

end Bindgen
