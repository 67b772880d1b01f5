import Bindgen.Proofs.Parts

/-! # What a transformation records

A transformation visits the parts of a declaration, children before parents. So
the events that it records are those of its rule, part by part, each time on the
part with its children rewritten.
-/

namespace Bindgen

theorem Traced.events_bind {ω ε α β : Type} {x : Traced ω ε α} {a : α} (h : x.outcome = .ok a)
    (f : α -> Traced ω ε β) : (x >>= f).events = x.events ++ (f a).events := by
  obtain ⟨events, outcome⟩ := x
  subst h
  rfl

@[simp] theorem Traced.events_done {ω ε α : Type} (a : α) :
    (done a : Traced ω ε α).events = [] := rfl

section

variable {ω : Type} {rule : Rule ω} {w : Rewriting}

theorem Decl.events_transformAll (h : rule.Follows w) (ds : List Decl) :
    (Decl.transformAll rule ds).events = ds.flatMap fun d => (d.transform rule).events := by
  induction ds with
  | nil => rfl
  | cons d ds ih =>
      rw [Decl.transformAll, Traced.events_bind (Decl.transform_outcome h d),
        Traced.events_bind (Decl.transformAll_outcome h ds), ih, Traced.events_done,
        List.append_nil, List.flatMap_cons]

/-- To check that a parameter stays one records nothing. -/
theorem Rule.Follows.events_keepParam (h : rule.Follows w) (name : String) (p : Param) :
    (rule (.param p) >>= Rule.keepParam name).events = (rule (.param p)).events := by
  rw [Traced.events_bind (h (.param p)), w.apply_param, Rule.keepParam, Traced.events_done,
    List.append_nil]

theorem Param.events_transformAll (h : rule.Follows w) (ps : List Param) :
    (Param.transformAll rule ps).events =
      ps.flatMap fun p => ((Decl.param p).transform rule).events := by
  induction ps with
  | nil => rfl
  | cons p ps ih =>
      obtain ⟨name, optional, isRest, type⟩ := p
      have type := Decl.transform_outcome h type
      rw [Param.transformAll, Traced.events_bind type, ← bind_assoc,
        Traced.events_bind (h.keepParam name _), h.events_keepParam,
        Traced.events_bind (Param.transformAll_outcome h ps), ih, Traced.events_done,
        List.append_nil, List.flatMap_cons, Decl.transform, Traced.events_bind type,
        List.append_assoc]

theorem Param.events_transformOption (h : rule.Follows w) (p : Option Param) :
    (Param.transformOption rule p).events =
      p.toList.flatMap fun p => ((Decl.param p).transform rule).events := by
  cases p with
  | none => rfl
  | some p =>
      obtain ⟨name, optional, isRest, type⟩ := p
      have type := Decl.transform_outcome h type
      rw [Param.transformOption, Traced.events_bind type, ← bind_assoc,
        Traced.events_bind (h.keepParam name _), h.events_keepParam, Traced.events_done,
        List.append_nil, Option.toList_some, List.flatMap_singleton, Decl.transform,
        Traced.events_bind type]

theorem Module.events_transformAll (h : rule.Follows w) (ms : List Module) :
    (Module.transformAll rule ms).events =
      ms.flatMap fun m => ((Decl.module m).transform rule).events := by
  induction ms with
  | nil => rfl
  | cons m ms ih =>
      obtain ⟨name, entries⟩ := m
      have entries := Decl.transformAll_outcome h entries
      rw [Module.transformAll, Traced.events_bind entries, Traced.events_bind (h _),
        Traced.events_bind (Module.transformAll_outcome h ms), ih, Traced.events_done,
        List.append_nil, List.flatMap_cons, Decl.transform, Traced.events_bind entries,
        List.append_assoc]

/-- The events of the children come first, then those of the declaration itself. -/
theorem Decl.events_transform_eq (h : rule.Follows w) (d : Decl) :
    (d.transform rule).events =
      d.children.flatMap (fun c => (c.transform rule).events) ++ (rule (d.rebuild w)).events := by
  have one := fun c (next : Decl -> Traced ω PassError Decl) =>
    Traced.events_bind (Decl.transform_outcome h c) next
  have many := fun ds (next : List Decl -> Traced ω PassError Decl) =>
    Traced.events_bind (Decl.transformAll_outcome h ds) next
  have inside := Decl.events_transformAll h
  cases d with
  | interface i =>
      obtain ⟨isStatic, name, typeParams, inherits, members⟩ := i
      simp only [Decl.transform, many, inside, Decl.rewriteAll_eq_map, Decl.children, Decl.rebuild,
        List.flatMap_append, List.append_assoc]
  | property p =>
      obtain ⟨emit, isStatic, index, name, optional, type⟩ := p
      simp only [Decl.transform, one, Traced.events_bind (Param.transformOption_outcome h _),
        Param.events_transformOption h, Param.rewriteOption_eq_map, Decl.children, Decl.rebuild,
        List.flatMap_append, List.flatMap_singleton, List.append_assoc]
      cases index with
      | none => rfl
      | some p => simp only [Option.toList_some, Option.map_some, List.flatMap_singleton]
  | function s =>
      obtain ⟨emit, isStatic, name, typeParams, params, result⟩ := s
      simp only [Decl.transform, one, many, Traced.events_bind (Param.transformAll_outcome h _),
        inside, Param.events_transformAll h, Decl.rewriteAll_eq_map, Param.rewriteAll_eq_map,
        Decl.children, Decl.rebuild, List.flatMap_append, List.flatMap_map, List.flatMap_singleton,
        List.append_assoc]
  | file f =>
      obtain ⟨name, opens, modules⟩ := f
      simp only [Decl.transform, Traced.events_bind (Module.transformAll_outcome h _),
        Module.events_transformAll h, Module.rewriteAll_eq_map, Decl.children, Decl.rebuild,
        List.flatMap_map]
  | param p =>
      obtain ⟨name, optional, isRest, type⟩ := p
      simp [Decl.transform, one, Decl.children, Decl.rebuild]
  | typeAlias a =>
      obtain ⟨name, type, typeParams⟩ := a
      simp [Decl.transform, one, many, inside, Decl.rewriteAll_eq_map, Decl.children, Decl.rebuild]
  | module m =>
      obtain ⟨name, entries⟩ := m
      simp [Decl.transform, many, inside, Decl.rewriteAll_eq_map, Decl.children, Decl.rebuild]
  | var v =>
      obtain ⟨declared, name, type⟩ := v
      simp [Decl.transform, one, Decl.children, Decl.rebuild]
  | _ =>
      simp [Decl.transform, one, many, inside, Decl.rewriteAll_eq_map, Decl.children, Decl.rebuild]

/-- The events of the rule on all parts, in the order in which they are visited. -/
theorem Decl.events_transform (h : rule.Follows w) (d : Decl) :
    (d.transform rule).events = d.parts.flatMap fun e => (rule (e.rebuild w)).events := by
  induction d using Decl.children_induction with
  | step d ih =>
      rw [Decl.events_transform_eq h, Decl.parts_eq, List.flatMap_append, List.flatMap_singleton,
        List.flatMap_assoc]
      congr 1
      rw [List.flatMap_def, List.flatMap_def, List.map_congr_left ih]

end

end Bindgen
