import Bindgen.Decl.Transform

/-! # Rewriting without effects

A rule that never fails, and that keeps parameters parameters and modules
modules, amounts to a function on declarations. `Decl.rewrite` applies such a
function bottom-up; `transform_outcome` says that a transformation by the rule
yields exactly what rewriting yields, whatever events the rule records.
-/

namespace Bindgen

namespace Traced

variable {ω ε α β : Type}

theorem map_eq_bind (f : α -> β) (x : Traced ω ε α) : f <$> x = x >>= fun a => done (f a) :=
  map_eq_pure_bind f x

theorem done_bind (a : α) (f : α -> Traced ω ε β) : (done a : Traced ω ε α) >>= f = f a :=
  done_andThen a f

/-- A computation that yields a value hands it to the next one. -/
theorem outcome_bind {x : Traced ω ε α} {a : α} (h : x.outcome = .ok a)
    (f : α -> Traced ω ε β) : (x >>= f).outcome = (f a).outcome := by
  obtain ⟨events, outcome⟩ := x
  subst h
  rfl

/-- A failure ends the computation. -/
theorem outcome_bind_error {x : Traced ω ε α} {e : ε} (h : x.outcome = .error e)
    (f : α -> Traced ω ε β) : (x >>= f).outcome = .error e := by
  obtain ⟨events, outcome⟩ := x
  subst h
  rfl

@[simp] theorem outcome_done (a : α) : (done a : Traced ω ε α).outcome = .ok a := rfl

theorem outcome_traverse {f : α -> Traced ω ε β} {g : α -> β}
    (h : ∀ a, (f a).outcome = .ok (g a)) (as : List α) :
    (traverse f as).outcome = .ok (as.map g) := by
  induction as with
  | nil => rfl
  | cons a as ih => rw [traverse, outcome_bind (h a), outcome_bind ih, List.map_cons, outcome_done]

theorem ok_of_bind {x : Traced ω ε α} {f : α -> Traced ω ε β} {b : β}
    (h : (x >>= f).outcome = .ok b) : ∃ a, x.outcome = .ok a ∧ (f a).outcome = .ok b := by
  obtain ⟨events, outcome⟩ := x
  cases outcome with
  | ok a => exact ⟨a, rfl, h⟩
  | error e => cases h

theorem ok_of_map {f : α -> β} {x : Traced ω ε α} {b : β} (h : (f <$> x).outcome = .ok b) :
    ∃ a, x.outcome = .ok a ∧ f a = b := by
  rw [map_eq_bind] at h
  obtain ⟨a, outcome, ⟨⟩⟩ := ok_of_bind h
  exact ⟨a, outcome, rfl⟩

theorem ok_of_mapError {ε' : Type} {x : Traced ω ε α} {f : ε -> ε'} {a : α}
    (h : (x.mapError f).outcome = .ok a) : x.outcome = .ok a := by
  obtain ⟨events, outcome⟩ := x
  cases outcome with
  | ok b => rw [Except.ok.inj h]
  | error e => cases h

end Traced

/-- A function that is applied to every declaration of a tree. It gives a
parameter for a parameter and a module for a module. -/
structure Rewriting where
  apply : Decl -> Decl
  onParam : Param -> Param
  onModule : Module -> Module
  apply_param : ∀ p, apply (.param p) = .param (onParam p)
  apply_module : ∀ m, apply (.module m) = .module (onModule m)

mutual

/-- Rewrite a declaration: its children, then the declaration. -/
def Decl.rewrite (w : Rewriting) : Decl -> Decl
  | .interface ⟨isStatic, name, typeParams, inherits, members⟩ =>
    w.apply (.interface ⟨isStatic, name, Decl.rewriteAll w typeParams,
      Decl.rewriteAll w inherits, Decl.rewriteAll w members⟩)
  | .property ⟨emit, isStatic, index, name, optional, type⟩ =>
    w.apply (.property ⟨emit, isStatic, Param.rewriteOption w index, name, optional,
      Decl.rewrite w type⟩)
  | .param ⟨name, optional, isRest, type⟩ =>
    w.apply (.param ⟨name, optional, isRest, Decl.rewrite w type⟩)
  | .array element => w.apply (.array (Decl.rewrite w element))
  | .function ⟨emit, isStatic, name, typeParams, params, result⟩ =>
    w.apply (.function ⟨emit, isStatic, name, Decl.rewriteAll w typeParams,
      Param.rewriteAll w params, Decl.rewrite w result⟩)
  | .union optional alternatives => w.apply (.union optional (Decl.rewriteAll w alternatives))
  | .typeAlias ⟨name, type, typeParams⟩ =>
    w.apply (.typeAlias ⟨name, Decl.rewrite w type, Decl.rewriteAll w typeParams⟩)
  | .generic base arguments =>
    w.apply (.generic (Decl.rewrite w base) (Decl.rewriteAll w arguments))
  | .tuple elements => w.apply (.tuple (Decl.rewriteAll w elements))
  | .module ⟨name, entries⟩ => w.apply (.module ⟨name, Decl.rewriteAll w entries⟩)
  | .file ⟨name, opens, modules⟩ => w.apply (.file ⟨name, opens, Module.rewriteAll w modules⟩)
  | .var ⟨declared, name, type⟩ => w.apply (.var ⟨declared, name, Decl.rewrite w type⟩)
  | .enum e => w.apply (.enum e)
  | .todo => w.apply .todo
  | .absent => w.apply .absent
  | .named name => w.apply (.named name)
  | .literal text => w.apply (.literal text)
  | .imported i => w.apply (.imported i)
  | .self => w.apply .self

def Decl.rewriteAll (w : Rewriting) : List Decl -> List Decl
  | [] => []
  | d :: ds => Decl.rewrite w d :: Decl.rewriteAll w ds

def Param.rewriteAll (w : Rewriting) : List Param -> List Param
  | [] => []
  | ⟨name, optional, isRest, type⟩ :: ps =>
    w.onParam ⟨name, optional, isRest, Decl.rewrite w type⟩ :: Param.rewriteAll w ps

def Param.rewriteOption (w : Rewriting) : Option Param -> Option Param
  | none => none
  | some ⟨name, optional, isRest, type⟩ =>
    some (w.onParam ⟨name, optional, isRest, Decl.rewrite w type⟩)

def Module.rewriteAll (w : Rewriting) : List Module -> List Module
  | [] => []
  | ⟨name, entries⟩ :: ms =>
    w.onModule ⟨name, Decl.rewriteAll w entries⟩ :: Module.rewriteAll w ms

end

def Param.rewrite (w : Rewriting) (p : Param) : Param :=
  w.onParam { p with type := p.type.rewrite w }

def Module.rewrite (w : Rewriting) (m : Module) : Module :=
  w.onModule { m with entries := m.entries.map (Decl.rewrite w) }

/-- Rewrite what is in a module; the module itself stays. -/
def Module.rewriteEntries (w : Rewriting) (m : Module) : Module :=
  { m with entries := m.entries.map (Decl.rewrite w) }

/-- Rewrite the modules of a file; the file itself stays. -/
def File.rewrite (w : Rewriting) (f : File) : File :=
  { f with modules := f.modules.map (Module.rewrite w) }

section

variable (w : Rewriting)

theorem Decl.rewriteAll_eq_map (ds : List Decl) :
    Decl.rewriteAll w ds = ds.map (Decl.rewrite w) := by
  induction ds with
  | nil => rfl
  | cons d ds ih => rw [Decl.rewriteAll, ih, List.map_cons]

theorem Param.rewriteAll_eq_map (ps : List Param) :
    Param.rewriteAll w ps = ps.map (Param.rewrite w) := by
  induction ps with
  | nil => rfl
  | cons p ps ih =>
      obtain ⟨name, optional, isRest, type⟩ := p
      rw [Param.rewriteAll, ih, List.map_cons, Param.rewrite]

theorem Param.rewriteOption_eq_map (p : Option Param) :
    Param.rewriteOption w p = p.map (Param.rewrite w) := by
  cases p with
  | none => rfl
  | some p =>
      obtain ⟨name, optional, isRest, type⟩ := p
      rw [Param.rewriteOption, Option.map_some, Param.rewrite]

theorem Module.rewriteAll_eq_map (ms : List Module) :
    Module.rewriteAll w ms = ms.map (Module.rewrite w) := by
  induction ms with
  | nil => rfl
  | cons m ms ih =>
      obtain ⟨name, entries⟩ := m
      rw [Module.rewriteAll, ih, List.map_cons, Module.rewrite, Decl.rewriteAll_eq_map]

def Decl.rebuild : Decl -> Decl
  | .interface i =>
    .interface { i with
      typeParams := i.typeParams.map (Decl.rewrite w)
      inherits := i.inherits.map (Decl.rewrite w)
      members := i.members.map (Decl.rewrite w) }
  | .property p =>
    .property { p with index := p.index.map (Param.rewrite w), type := p.type.rewrite w }
  | .param p => .param { p with type := p.type.rewrite w }
  | .array element => .array (element.rewrite w)
  | .function f =>
    .function { f with
      typeParams := f.typeParams.map (Decl.rewrite w)
      params := f.params.map (Param.rewrite w)
      result := f.result.rewrite w }
  | .union optional alternatives => .union optional (alternatives.map (Decl.rewrite w))
  | .typeAlias a =>
    .typeAlias { a with type := a.type.rewrite w, typeParams := a.typeParams.map (Decl.rewrite w) }
  | .generic base arguments => .generic (base.rewrite w) (arguments.map (Decl.rewrite w))
  | .tuple elements => .tuple (elements.map (Decl.rewrite w))
  | .module m => .module { m with entries := m.entries.map (Decl.rewrite w) }
  | .file f => .file { f with modules := f.modules.map (Module.rewrite w) }
  | .var v => .var { v with type := v.type.rewrite w }
  | d => d

/-- Rewriting applies the function to the rebuilt declaration. -/
theorem Decl.rewrite_eq_apply (d : Decl) : d.rewrite w = w.apply (d.rebuild w) := by
  cases d with
  | interface i =>
      cases i
      simp only [Decl.rewrite, Decl.rebuild, Decl.rewriteAll_eq_map]
  | property p =>
      cases p
      simp only [Decl.rewrite, Decl.rebuild, Param.rewriteOption_eq_map]
  | param p =>
      cases p
      rw [Decl.rewrite, Decl.rebuild]
  | function f =>
      cases f
      simp only [Decl.rewrite, Decl.rebuild, Decl.rewriteAll_eq_map, Param.rewriteAll_eq_map]
  | typeAlias a =>
      cases a
      simp only [Decl.rewrite, Decl.rebuild, Decl.rewriteAll_eq_map]
  | module m =>
      cases m
      simp only [Decl.rewrite, Decl.rebuild, Decl.rewriteAll_eq_map]
  | file f =>
      cases f
      simp only [Decl.rewrite, Decl.rebuild, Module.rewriteAll_eq_map]
  | var v =>
      cases v
      rw [Decl.rewrite, Decl.rebuild]
  | _ => simp only [Decl.rewrite, Decl.rebuild, Decl.rewriteAll_eq_map]

theorem Decl.rewrite_module (m : Module) :
    (Decl.module m).rewrite w = .module (m.rewrite w) := by
  rw [Decl.rewrite_eq_apply, Decl.rebuild, w.apply_module, Module.rewrite]

end

/-! ## Rules that amount to a rewriting -/

/-- The rule yields what the rewriting gives, for every declaration. -/
def Rule.Follows {ω : Type} (rule : Rule ω) (w : Rewriting) : Prop :=
  ∀ d, (rule d).outcome = .ok (w.apply d)

section

variable {ω : Type} {rule : Rule ω} {w : Rewriting}

theorem Rule.Follows.keepParam (h : rule.Follows w) (name : String) (p : Param) :
    (rule (.param p) >>= Rule.keepParam name).outcome = .ok (w.onParam p) := by
  rw [Traced.outcome_bind (h (.param p)), w.apply_param]
  rfl

mutual

theorem Decl.transform_outcome (h : rule.Follows w) (d : Decl) :
    (d.transform rule).outcome = .ok (d.rewrite w) := by
  cases d with
  | interface i =>
      obtain ⟨isStatic, name, typeParams, inherits, members⟩ := i
      rw [Decl.transform, Traced.outcome_bind (Decl.transformAll_outcome h typeParams),
        Traced.outcome_bind (Decl.transformAll_outcome h inherits),
        Traced.outcome_bind (Decl.transformAll_outcome h members), h, Decl.rewrite]
  | property p =>
      obtain ⟨emit, isStatic, index, name, optional, type⟩ := p
      rw [Decl.transform, Traced.outcome_bind (Param.transformOption_outcome h index),
        Traced.outcome_bind (Decl.transform_outcome h type), h, Decl.rewrite]
  | param p =>
      obtain ⟨name, optional, isRest, type⟩ := p
      rw [Decl.transform, Traced.outcome_bind (Decl.transform_outcome h type), h, Decl.rewrite]
  | array element =>
      rw [Decl.transform, Traced.outcome_bind (Decl.transform_outcome h element), h, Decl.rewrite]
  | function f =>
      obtain ⟨emit, isStatic, name, typeParams, params, result⟩ := f
      rw [Decl.transform, Traced.outcome_bind (Decl.transformAll_outcome h typeParams),
        Traced.outcome_bind (Param.transformAll_outcome h params),
        Traced.outcome_bind (Decl.transform_outcome h result), h, Decl.rewrite]
  | union optional alternatives =>
      rw [Decl.transform, Traced.outcome_bind (Decl.transformAll_outcome h alternatives), h,
        Decl.rewrite]
  | typeAlias a =>
      obtain ⟨name, type, typeParams⟩ := a
      rw [Decl.transform, Traced.outcome_bind (Decl.transform_outcome h type),
        Traced.outcome_bind (Decl.transformAll_outcome h typeParams), h, Decl.rewrite]
  | generic base arguments =>
      rw [Decl.transform, Traced.outcome_bind (Decl.transform_outcome h base),
        Traced.outcome_bind (Decl.transformAll_outcome h arguments), h, Decl.rewrite]
  | tuple elements =>
      rw [Decl.transform, Traced.outcome_bind (Decl.transformAll_outcome h elements), h,
        Decl.rewrite]
  | module m =>
      obtain ⟨name, entries⟩ := m
      rw [Decl.transform, Traced.outcome_bind (Decl.transformAll_outcome h entries), h,
        Decl.rewrite]
  | file f =>
      obtain ⟨name, opens, modules⟩ := f
      rw [Decl.transform, Traced.outcome_bind (Module.transformAll_outcome h modules), h,
        Decl.rewrite]
  | var v =>
      obtain ⟨declared, name, type⟩ := v
      rw [Decl.transform, Traced.outcome_bind (Decl.transform_outcome h type), h, Decl.rewrite]
  | enum e => rw [Decl.transform, h, Decl.rewrite]
  | todo => rw [Decl.transform, h, Decl.rewrite]
  | absent => rw [Decl.transform, h, Decl.rewrite]
  | named name => rw [Decl.transform, h, Decl.rewrite]
  | literal text => rw [Decl.transform, h, Decl.rewrite]
  | imported i => rw [Decl.transform, h, Decl.rewrite]
  | self => rw [Decl.transform, h, Decl.rewrite]

theorem Decl.transformAll_outcome (h : rule.Follows w) (ds : List Decl) :
    (Decl.transformAll rule ds).outcome = .ok (Decl.rewriteAll w ds) := by
  cases ds with
  | nil => rw [Decl.transformAll, Decl.rewriteAll, Traced.outcome_done]
  | cons d ds =>
      rw [Decl.transformAll, Traced.outcome_bind (Decl.transform_outcome h d),
        Traced.outcome_bind (Decl.transformAll_outcome h ds), Decl.rewriteAll,
        Traced.outcome_done]

theorem Param.transformAll_outcome (h : rule.Follows w) (ps : List Param) :
    (Param.transformAll rule ps).outcome = .ok (Param.rewriteAll w ps) := by
  cases ps with
  | nil => rw [Param.transformAll, Param.rewriteAll, Traced.outcome_done]
  | cons p ps =>
      obtain ⟨name, optional, isRest, type⟩ := p
      rw [Param.transformAll, Traced.outcome_bind (Decl.transform_outcome h type), ← bind_assoc,
        Traced.outcome_bind (h.keepParam name _),
        Traced.outcome_bind (Param.transformAll_outcome h ps), Param.rewriteAll,
        Traced.outcome_done]

theorem Param.transformOption_outcome (h : rule.Follows w) (p : Option Param) :
    (Param.transformOption rule p).outcome = .ok (Param.rewriteOption w p) := by
  cases p with
  | none => rw [Param.transformOption, Param.rewriteOption, Traced.outcome_done]
  | some p =>
      obtain ⟨name, optional, isRest, type⟩ := p
      rw [Param.transformOption, Traced.outcome_bind (Decl.transform_outcome h type),
        ← bind_assoc, Traced.outcome_bind (h.keepParam name _), Param.rewriteOption,
        Traced.outcome_done]

theorem Module.transformAll_outcome (h : rule.Follows w) (ms : List Module) :
    (Module.transformAll rule ms).outcome = .ok (Module.rewriteAll w ms) := by
  cases ms with
  | nil => rw [Module.transformAll, Module.rewriteAll, Traced.outcome_done]
  | cons m ms =>
      obtain ⟨name, entries⟩ := m
      rw [Module.transformAll, Traced.outcome_bind (Decl.transformAll_outcome h entries),
        Traced.outcome_bind (h _), Traced.outcome_bind (Module.transformAll_outcome h ms),
        w.apply_module, Module.rewriteAll, Traced.outcome_done]
      rfl

end

theorem Module.transform_outcome (h : rule.Follows w) (m : Module) :
    (m.transform rule).outcome = .ok (m.rewriteEntries w) := by
  rw [Module.transform, Traced.outcome_bind (Decl.transformAll_outcome h m.entries),
    Traced.outcome_done, Decl.rewriteAll_eq_map, Module.rewriteEntries]

theorem File.transform_outcome (h : rule.Follows w) (f : File) :
    (f.transform rule).outcome = .ok (f.rewrite w) := by
  rw [File.transform, Traced.outcome_bind (Module.transformAll_outcome h f.modules),
    Traced.outcome_done, Module.rewriteAll_eq_map, File.rewrite]

end

end Bindgen
