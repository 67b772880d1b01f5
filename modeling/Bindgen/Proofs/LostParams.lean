import Bindgen.Proofs.Faults
import Bindgen.Proofs.Postorder

/-! # How a transformation ends

A transformation fails at the first parameter of a function or an indexer that its rule
replaces by something else, and for no other reason. In all other places whatever the rule
gives is put in, and of the modules of a file those that are modules still are kept.
-/

namespace Bindgen

/-! ## A transformation as visits to the children -/

namespace Traced

variable {ω ε α β γ σ : Type}

/-- What comes next can be told from the only value that is possible. -/
theorem bind_eq_of_value {x : Traced ω ε α} {v : α} (value : ∀ a, x.outcome = .ok a -> a = v)
    (next : α -> Traced ω ε β) : x >>= next = x >>= fun _ => next v := by
  obtain ⟨events, outcome⟩ := x
  cases outcome with
  | error e => rfl
  | ok a =>
      rw [value a rfl]
      rfl

/-- To collect values is to visit one after the other, if each value is known before. -/
theorem traverse_bind {f : α -> Traced ω ε β} {visit : σ -> Traced ω ε γ} {slot : α -> σ}
    {value : α -> β} {δ : Type}
    (one : ∀ (a : α) (next : β -> Traced ω ε δ),
      f a >>= next = visit (slot a) >>= fun _ => next (value a))
    (as : List α) (next : List β -> Traced ω ε δ) :
    traverse f as >>= next = each visit (as.map slot) >>= fun _ => next (as.map value) := by
  induction as generalizing next with
  | nil => rfl
  | cons a as ih =>
      have rest : ∀ b, (do let bs ← traverse f as; done (b :: bs)) >>= next =
          each visit (as.map slot) >>= fun _ => next (b :: as.map value) := by
        intro b
        rw [bind_assoc]
        exact ih fun bs => next (b :: bs)
      rw [traverse, bind_assoc, one, rest, List.map_cons, each, bind_assoc]
      rfl

end Traced

namespace Decl

/-- The children of a declaration, each with whether it must stay a parameter. -/
def slots : Decl -> List (Decl × Bool)
  | .property p => (p.index.map fun q => (Decl.param q, true)).toList ++ [(p.type, false)]
  | .function s =>
    s.typeParams.map (·, false) ++ s.params.map (fun q => (Decl.param q, true)) ++
      [(s.result, false)]
  | d => d.children.map (·, false)

theorem map_fst_slots (d : Decl) : d.slots.map Prod.fst = d.children := by
  cases d with
  | property p =>
      obtain ⟨emit, isStatic, index, name, optional, type⟩ := p
      cases index <;> rfl
  | function s => simp [slots, children, Function.comp_def]
  | _ => simp [slots, Function.comp_def]

/-- The declaration with a function applied to its children. A parameter stays if it
becomes something else, and a module of a file is dropped then. -/
def refill (f : Decl -> Decl) : Decl -> Decl
  | .file g => .file { g with modules := g.modules.filterMap fun m => (f (.module m)).module? }
  | d => d.mapChildren f

end Decl

section

variable {ω β : Type} (rule : Rule ω)

def Decl.yield (d : Decl) : Decl :=
  match (d.transform rule).outcome with
  | .ok e => e
  | .error _ => d

def Param.kept (p : Param) : Traced ω PassError Param :=
  (Decl.param p).transform rule >>= Rule.keepParam p.name

/-- Transform a child, and check it if it must stay a parameter. -/
def Decl.visit : Decl × Bool -> Traced ω PassError Decl
  | (c, false) => c.transform rule
  | (c, true) => do
    let e ← c.transform rule
    let p ← Rule.keepParam (c.name?.getD "") e
    .done (.param p)

theorem Decl.transformAll_eq_traverse (ds : List Decl) :
    Decl.transformAll rule ds = Traced.traverse (Decl.transform rule) ds := by
  induction ds with
  | nil => rfl
  | cons d ds ih => rw [Decl.transformAll, ih, Traced.traverse]

theorem Param.transformAll_eq_traverse (ps : List Param) :
    Param.transformAll rule ps = Traced.traverse (Param.kept rule) ps := by
  induction ps with
  | nil => rfl
  | cons p ps ih =>
      obtain ⟨name, optional, isRest, type⟩ := p
      simp only [Param.transformAll, ih, Traced.traverse, Param.kept, Decl.transform, bind_assoc]

theorem Param.transformOption_eq_traverse (p : Option Param) :
    Param.transformOption rule p =
      Traced.traverse (Param.kept rule) p.toList >>= fun ps => .done ps.head? := by
  cases p with
  | none => rfl
  | some p =>
      obtain ⟨name, optional, isRest, type⟩ := p
      simp only [Param.transformOption, Option.toList_some, Traced.traverse, Param.kept,
        Decl.transform, bind_assoc]
      rfl

theorem Module.transformAll_eq_traverse (ms : List Module) :
    Module.transformAll rule ms =
      Traced.traverse (fun m => (Decl.module m).transform rule) ms >>= fun ds =>
        .done (ds.filterMap Decl.module?) := by
  induction ms with
  | nil => rfl
  | cons m ms ih =>
      obtain ⟨name, entries⟩ := m
      have first : ∀ (d : Decl) (ds : List Decl), d.module?.toList ++ ds.filterMap Decl.module? =
          (d :: ds).filterMap Decl.module? := by
        intro d ds
        cases d <;> rfl
      simp only [Module.transformAll, ih, Traced.traverse, Decl.transform, bind_assoc,
        Traced.done_bind, first]

theorem Decl.transform_bind (d : Decl) (next : Decl -> Traced ω PassError β) :
    d.transform rule >>= next = Decl.visit rule (d, false) >>= fun _ => next (d.yield rule) :=
  Traced.bind_eq_of_value (fun a h => by rw [Decl.yield, h]) next

theorem Param.kept_bind (p : Param) (next : Param -> Traced ω PassError β) :
    p.kept rule >>= next =
      Decl.visit rule (.param p, true) >>= fun _ => next (Param.via (Decl.yield rule) p) := by
  have value : ∀ q, (p.kept rule).outcome = .ok q -> q = Param.via (Decl.yield rule) p := by
    intro q outcome
    obtain ⟨d, outcome, param⟩ := Traced.ok_of_bind outcome
    cases d with
    | param r =>
        cases param
        rw [Param.via, Decl.yield, outcome]
    | _ => cases param
  rw [Traced.bind_eq_of_value value, Param.kept, Decl.visit]
  simp only [bind_assoc]
  rfl

/-- A transformation visits the children one after the other, and then applies the rule
to the declaration with what these visits yield. -/
theorem Decl.transform_eq_visits (d : Decl) :
    d.transform rule =
      Traced.each (Decl.visit rule) d.slots >>= fun _ => rule (d.refill (Decl.yield rule)) := by
  have one : ∀ (c : Decl) (next : Decl -> Traced ω PassError Decl), c.transform rule >>= next =
      Traced.each (Decl.visit rule) [(c, false)] >>= fun _ => next (c.yield rule) := by
    intro c next
    rw [Decl.transform_bind, Traced.each, bind_assoc]
    rfl
  have many : ∀ (ds : List Decl) (next : List Decl -> Traced ω PassError Decl),
      Decl.transformAll rule ds >>= next =
        Traced.each (Decl.visit rule) (ds.map (·, false)) >>= fun _ =>
          next (ds.map (Decl.yield rule)) := by
    intro ds next
    rw [Decl.transformAll_eq_traverse]
    exact Traced.traverse_bind (Decl.transform_bind rule) ds next
  cases d with
  | interface i =>
      obtain ⟨isStatic, name, typeParams, inherits, members⟩ := i
      simp only [Decl.transform, many, Decl.slots, Decl.children, List.map_append,
        Traced.each_append, bind_assoc]
      rfl
  | property p =>
      obtain ⟨emit, isStatic, index, name, optional, type⟩ := p
      rw [Decl.transform, Param.transformOption_eq_traverse, bind_assoc,
        Traced.traverse_bind (Param.kept_bind rule)]
      simp only [Traced.done_bind, one, Decl.slots, Traced.each_append, bind_assoc]
      cases index <;> rfl
  | function s =>
      obtain ⟨emit, isStatic, name, typeParams, params, result⟩ := s
      have held := fun (next : List Param -> Traced ω PassError Decl) =>
        Traced.traverse_bind (Param.kept_bind rule) params next
      simp only [Decl.transform, Param.transformAll_eq_traverse, held, one, many, Decl.slots,
        Traced.each_append, bind_assoc]
      rfl
  | file f =>
      obtain ⟨name, opens, modules⟩ := f
      rw [Decl.transform, Module.transformAll_eq_traverse, bind_assoc,
        Traced.traverse_bind fun m => Decl.transform_bind rule (.module m)]
      simp only [Traced.done_bind, Decl.slots, Decl.children, List.map_map, Decl.refill,
        List.filterMap_map, Function.comp_def]
  | param p =>
      obtain ⟨name, optional, isRest, type⟩ := p
      rw [Decl.transform, one]
      rfl
  | typeAlias a =>
      obtain ⟨name, type, typeParams⟩ := a
      simp only [Decl.transform, one, many]
      rw [← bind_assoc, ← Traced.each_append]
      rfl
  | generic base arguments =>
      simp only [Decl.transform, one, many]
      rw [← bind_assoc, ← Traced.each_append]
      rfl
  | module m =>
      obtain ⟨name, entries⟩ := m
      rw [Decl.transform, many]
      rfl
  | var v =>
      obtain ⟨declared, name, type⟩ := v
      rw [Decl.transform, one]
      rfl
  | array element =>
      rw [Decl.transform, one]
      rfl
  | union optional alternatives =>
      rw [Decl.transform, many]
      rfl
  | tuple elements =>
      rw [Decl.transform, many]
      rfl
  | _ =>
      rw [Decl.transform]
      rfl

end

/-! ## Lost parameters -/

/-- The rule that records something about every declaration and puts `g d` in the place
of `d`. -/
def Rule.of {ω : Type} (record : Decl -> List ω) (g : Decl -> Decl) : Rule ω :=
  fun d => ⟨record d, .ok (g d)⟩

/-- At the place stands the parameter `q` of a function or an indexer, and once its type is
transformed the rule puts `e` in the place of it, which is no parameter. -/
inductive Decl.Loses {ω : Type} (rule : Rule ω) : Decl -> List Nat -> Param -> Decl -> Prop
  | here {d e type : Decl} {k : Nat} {q : Param} (slot : d.slots[k]? = some (.param q, true))
      (rebuilt : (q.type.transform rule).outcome = .ok type)
      (replaced : (rule (.param { q with type })).outcome = .ok e) (other : ∀ p, e ≠ .param p) :
      Loses rule d [k] q e
  | inside {d c e : Decl} {k : Nat} {place : List Nat} {q : Param}
      (child : d.children[k]? = some c) (lost : Loses rule c place q e) :
      Loses rule d (k :: place) q e

/-- The parameter is lost before all others that are. -/
structure Decl.LosesFirst {ω : Type} (rule : Rule ω) (d : Decl) (place : List Nat) (q : Param)
    (e : Decl) : Prop where
  lost : d.Loses rule place q e
  first : ∀ other r b, d.Loses rule other r b -> other = place ∨ PlaceBefore place other

namespace Decl

variable {ω : Type} {rule : Rule ω}

theorem getElem?_children {d : Decl} {k : Nat} {slot : Decl × Bool} (h : d.slots[k]? = some slot) :
    d.children[k]? = some slot.1 := by
  rw [← map_fst_slots, List.getElem?_map, h, Option.map_some]

theorem getElem?_slots {d c : Decl} {k : Nat} (h : d.children[k]? = some c) :
    ∃ held, d.slots[k]? = some (c, held) := by
  rw [← map_fst_slots, List.getElem?_map, Option.map_eq_some_iff] at h
  obtain ⟨⟨c, held⟩, slot, rfl⟩ := h
  exact ⟨held, slot⟩

/-- Only parameters must stay parameters. -/
theorem exists_param_of_slot {d c : Decl} (h : (c, true) ∈ d.slots) : ∃ q, c = .param q := by
  have free : ∀ ds : List Decl, (c, true) ∉ ds.map (·, false) := by simp
  cases d with
  | property p =>
      simp only [slots, List.mem_append, Option.mem_toList, Option.map_eq_some_iff,
        List.mem_singleton, Prod.mk.injEq] at h
      rcases h with ⟨q, -, rfl, -⟩ | ⟨-, ⟨⟩⟩
      exact ⟨q, rfl⟩
  | function s =>
      simp only [slots, List.mem_append, List.mem_map, List.mem_singleton, Prod.mk.injEq] at h
      rcases h with (⟨t, -, -, ⟨⟩⟩ | ⟨q, -, rfl, -⟩) | ⟨-, ⟨⟩⟩
      exact ⟨q, rfl⟩
  | _ => exact absurd h (free _)

/-- The three ways in which a visit can end. -/
theorem visit_cases (rule : Rule ω) (slot : Decl × Bool) :
    (∃ cause, (slot.1.transform rule).cause? = some cause ∧
      (visit rule slot).cause? = some cause) ∨
    (∃ e, (slot.1.transform rule).outcome = .ok e ∧ (slot.2 = true -> ∃ p, e = .param p) ∧
      (visit rule slot).cause? = none) ∨
    (∃ e, (slot.1.transform rule).outcome = .ok e ∧ slot.2 = true ∧ (∀ p, e ≠ .param p) ∧
      (visit rule slot).cause? = some (.lostParam (slot.1.name?.getD "") e.kind)) := by
  obtain ⟨c, held⟩ := slot
  cases held with
  | false =>
      cases outcome : (c.transform rule).outcome with
      | ok e =>
          refine .inr (.inl ⟨e, rfl, nofun, ?_⟩)
          rw [visit, Traced.cause?, outcome]
      | error cause => exact .inl ⟨cause, Traced.cause?_eq_some_iff.mpr outcome,
          Traced.cause?_eq_some_iff.mpr outcome⟩
  | true =>
      rw [visit]
      generalize c.transform rule = visited
      obtain ⟨events, outcome⟩ := visited
      cases outcome with
      | error cause => exact .inl ⟨cause, rfl, rfl⟩
      | ok e =>
          refine .inr ?_
          cases e with
          | param p => exact .inl ⟨_, rfl, fun _ => ⟨p, rfl⟩, rfl⟩
          | _ => exact .inr ⟨_, rfl, rfl, nofun, rfl⟩

theorem visit_fails_of_child {slot : Decl × Bool} (h : (slot.1.transform rule).cause? ≠ none) :
    (visit rule slot).cause? ≠ none := by
  obtain ⟨cause, -, fails⟩ | ⟨e, outcome, -⟩ | ⟨e, -, -, -, fails⟩ := visit_cases rule slot
  · rw [fails]
    nofun
  · rw [Traced.cause?, outcome] at h
    exact absurd rfl h
  · rw [fails]
    nofun

theorem visit_fails_of_lost {q : Param} {e : Decl}
    (replaced : ((Decl.param q).transform rule).outcome = .ok e) (other : ∀ p, e ≠ .param p) :
    (visit rule (.param q, true)).cause? ≠ none := by
  obtain ⟨cause, -, fails⟩ | ⟨b, outcome, param, -⟩ | ⟨b, -, -, -, fails⟩ :=
    visit_cases rule (.param q, true)
  · rw [fails]
    nofun
  · cases replaced.symm.trans outcome
    obtain ⟨p, rfl⟩ := param rfl
    exact absurd rfl (other p)
  · rw [fails]
    nofun

theorem transform_param {q : Param} {type : Decl}
    (rebuilt : (q.type.transform rule).outcome = .ok type) :
    ((Decl.param q).transform rule).outcome = (rule (.param { q with type })).outcome := by
  obtain ⟨name, optional, isRest, before⟩ := q
  rw [transform, Traced.outcome_bind rebuilt]

theorem rebuilt_of_transform_param {q : Param} {e : Decl}
    (h : ((Decl.param q).transform rule).outcome = .ok e) :
    ∃ type, (q.type.transform rule).outcome = .ok type ∧
      (rule (.param { q with type })).outcome = .ok e := by
  obtain ⟨name, optional, isRest, before⟩ := q
  rw [transform] at h
  exact Traced.ok_of_bind h

section

variable (total : ∀ d, (rule d).cause? = none)

include total

/-- The first visit that fails gives the cause. -/
theorem cause?_transform (d : Decl) :
    (d.transform rule).cause? = d.slots.findSome? fun slot => (visit rule slot).cause? := by
  rw [transform_eq_visits, Traced.cause?_bind_of_none fun _ => total _, Traced.cause?_each]

theorem fails_of_visit {d : Decl} {k : Nat} {slot : Decl × Bool} (there : d.slots[k]? = some slot)
    (fails : (visit rule slot).cause? ≠ none) : (d.transform rule).cause? ≠ none := by
  rw [cause?_transform total, ne_eq, List.findSome?_eq_none_iff]
  exact fun none => fails (none slot (List.mem_of_getElem? there))

/-- Where a parameter is lost, the transformation fails. -/
theorem Loses.fails {d e : Decl} {place : List Nat} {q : Param} (h : d.Loses rule place q e) :
    (d.transform rule).cause? ≠ none := by
  induction h with
  | here slot rebuilt replaced other =>
      exact fails_of_visit total slot
        (visit_fails_of_lost ((transform_param rebuilt).trans replaced) other)
  | inside child _ ih =>
      obtain ⟨held, slot⟩ := getElem?_slots child
      exact fails_of_visit total slot (visit_fails_of_child ih)

/-- The visit to the child that a parameter is lost in fails. -/
theorem Loses.visit_fails {d e : Decl} {place : List Nat} {q : Param}
    (h : d.Loses rule place q e) :
    ∃ k inside slot, place = k :: inside ∧ d.slots[k]? = some slot ∧
      (visit rule slot).cause? ≠ none := by
  cases h with
  | here slot rebuilt replaced other =>
      exact ⟨_, [], _, rfl, slot,
        visit_fails_of_lost ((transform_param rebuilt).trans replaced) other⟩
  | inside child lost =>
      obtain ⟨held, slot⟩ := getElem?_slots child
      exact ⟨_, _, _, rfl, slot, visit_fails_of_child (lost.fails total)⟩

/-- A loss in the first child whose visit fails comes before those in later children. -/
theorem LosesFirst.of_child {d e : Decl} {k : Nat} {inside : List Nat} {q : Param}
    (lost : d.Loses rule (k :: inside) q e)
    (before : ∀ l slot, l < k -> d.slots[l]? = some slot -> (visit rule slot).cause? = none)
    (same : ∀ other r b, d.Loses rule (k :: other) r b -> other = inside ∨
      PlaceBefore inside other) : d.LosesFirst rule (k :: inside) q e where
  lost := lost
  first place r b loss := by
    obtain ⟨l, other, slot, rfl, there, fails⟩ := loss.visit_fails total
    rcases Nat.lt_trichotomy l k with less | rfl | more
    · exact absurd (before l slot less there) fails
    · exact (same other r b loss).imp (congrArg (l :: ·)) fun before => .inr ⟨rfl, before⟩
    · exact .inr (.inl more)

/-- The transformation fails at the first parameter that is lost. -/
theorem losesFirst_of_fails {d : Decl} {cause : PassError}
    (fails : (d.transform rule).cause? = some cause) :
    ∃ place q e, d.LosesFirst rule place q e ∧ cause = .lostParam q.name e.kind := by
  induction d using children_induction with
  | step d ih =>
      rw [cause?_transform total] at fails
      obtain ⟨ahead, ⟨c, held⟩, behind, split, fails, fine⟩ := List.findSome?_eq_some_iff.mp fails
      have slot : d.slots[ahead.length]? = some (c, held) := by
        rw [split, List.getElem?_append_right (Nat.le_refl _), Nat.sub_self]
        rfl
      have child := getElem?_children slot
      have before : ∀ l other, l < ahead.length -> d.slots[l]? = some other ->
          (visit rule other).cause? = none := by
        intro l other less there
        rw [split, List.getElem?_append_left less] at there
        exact fine other (List.mem_of_getElem? there)
      obtain ⟨inner, inside, here⟩ | ⟨e, -, -, here⟩ | ⟨e, outcome, rfl, other, here⟩ :=
        visit_cases rule (c, held)
      · cases fails.symm.trans here
        obtain ⟨place, q, e, first, named⟩ := ih c (List.mem_of_getElem? child) inside
        refine ⟨ahead.length :: place, q, e, ?_, named⟩
        refine .of_child total (.inside child first.lost) before ?_
        intro place' r b loss
        cases loss with
        | here =>
            obtain ⟨l, rest, -, rfl, -⟩ := first.lost.visit_fails total
            exact .inr trivial
        | inside child' loss =>
            cases child.symm.trans child'
            exact first.first place' r b loss
      · cases fails.symm.trans here
      · cases fails.symm.trans here
        obtain ⟨q, rfl⟩ := exists_param_of_slot (List.mem_of_getElem? slot)
        obtain ⟨type, rebuilt, replaced⟩ := rebuilt_of_transform_param outcome
        refine ⟨[ahead.length], q, e,
          .of_child total (.here slot rebuilt replaced other) before ?_, rfl⟩
        intro place r b loss
        cases loss with
        | here => exact .inl rfl
        | inside child' loss =>
            cases child.symm.trans child'
            have fails := loss.fails total
            rw [Traced.cause?, outcome] at fails
            exact absurd rfl fails

end

end Decl

/-! ## Outcomes -/

namespace Decl

variable {ω : Type} {rule : Rule ω} {d : Decl}

theorem transform_eq_yield (h : (d.transform rule).cause? = none) :
    (d.transform rule).outcome = .ok (d.yield rule) := by
  unfold yield
  cases outcome : (d.transform rule).outcome with
  | ok e => rfl
  | error cause => cases (Traced.cause?_eq_some_iff.mpr outcome).symm.trans h

/-- If the transformation does not fail, it fails for no child, and what it yields for
these is put in. -/
theorem transform_refill (total : ∀ e, (rule e).cause? = none)
    (h : (d.transform rule).cause? = none) :
    (∀ c ∈ d.children, (c.transform rule).outcome = .ok (c.yield rule)) ∧
      (d.transform rule).outcome = (rule (d.refill (yield rule))).outcome := by
  constructor
  · intro c child
    obtain ⟨k, child⟩ := List.mem_iff_getElem?.mp child
    obtain ⟨held, slot⟩ := getElem?_slots child
    refine transform_eq_yield (Classical.byContradiction fun fails => ?_)
    exact fails_of_visit total slot (visit_fails_of_child fails) h
  · rw [cause?_transform total, ← Traced.cause?_each] at h
    rw [transform_eq_visits]
    generalize Traced.each (visit rule) d.slots = visits at h
    obtain ⟨events, outcome⟩ := visits
    cases outcome with
    | ok _ => rfl
    | error cause => cases h

end Decl

/-- A transformation visits every place once, what is inside before what is around it: the
rule that records what it is given and changes nothing lists the parts of the declaration
in this order and leaves the declaration as it is. With any rule that gives something for
every declaration, the transformation fails exactly if a parameter of a function or an
indexer is lost, and the cause names the first one. Otherwise the rule is applied to the
declaration with the outcomes of its children in their places, where a module of a file
that is no module any more is left out. -/
theorem Decl.transform_in_postorder (d : Decl) :
    ((d.transform Rule.recorder).outcome = .ok d ∧
      ∃ places : List (List Nat), places.Pairwise PlaceBefore ∧
        (∀ place, place ∈ places ↔ (d.partAt? place).isSome) ∧
        (d.transform Rule.recorder).events.map some = places.map (partAt? · d)) ∧
    ∀ {ω : Type} (record : Decl -> List ω) (g : Decl -> Decl),
      ((∃ cause, (d.transform (.of record g)).outcome = .error cause) ↔
        ∃ place q e, d.Loses (.of record g) place q e) ∧
      (∀ cause, (d.transform (.of record g)).outcome = .error cause ->
        ∃ place q e, d.LosesFirst (.of record g) place q e ∧ cause = .lostParam q.name e.kind) ∧
      ((¬ ∃ place q e, d.Loses (.of record g) place q e) ->
        ∃ f : Decl -> Decl,
          (∀ c ∈ d.children, (c.transform (.of record g)).outcome = .ok (f c)) ∧
          (d.transform (.of record g)).outcome = .ok (g (d.refill f))) := by
  refine ⟨⟨?_, d.postorder, d.pairwise_postorder, fun _ => mem_postorder, ?_⟩, ?_⟩
  · rw [Decl.transform_outcome Rule.recorder_follows, d.rewrite_unchanged]
  · rw [d.events_recorder, d.map_postorder]
  · intro ω record g
    have total : ∀ e, (Rule.of record g e).cause? = none := fun _ => rfl
    have first : ∀ cause, (d.transform (.of record g)).outcome = .error cause ->
        ∃ place q e, d.LosesFirst (.of record g) place q e ∧ cause = .lostParam q.name e.kind :=
      fun cause fails => losesFirst_of_fails total (Traced.cause?_eq_some_iff.mpr fails)
    refine ⟨⟨?_, ?_⟩, first, ?_⟩
    · rintro ⟨cause, fails⟩
      obtain ⟨place, q, e, loss, -⟩ := first cause fails
      exact ⟨place, q, e, loss.lost⟩
    · rintro ⟨place, q, e, loss⟩
      obtain ⟨cause, fails⟩ := Option.ne_none_iff_exists'.mp (loss.fails total)
      exact ⟨cause, Traced.cause?_eq_some_iff.mp fails⟩
    · intro kept
      have fine : (d.transform (.of record g)).cause? = none := by
        refine Classical.byContradiction fun fails => ?_
        obtain ⟨cause, fails⟩ := Option.ne_none_iff_exists'.mp fails
        obtain ⟨place, q, e, loss, -⟩ := losesFirst_of_fails total fails
        exact kept ⟨place, q, e, loss.lost⟩
      exact ⟨yield (.of record g), transform_refill total fine⟩

/-- A function with a parameter among its type parameters, a callback and another
parameter. -/
def callbackFunction : Decl :=
  .function ⟨none, false, some "on", [.param ⟨"T", false, false, .todo⟩],
    [⟨"handler", false, false, .function ⟨none, false, none, [], [⟨"event", false, false, .self⟩],
      .unit⟩⟩, ⟨"options", true, false, .obj⟩], .unit⟩

def blankFile : Decl :=
  .file ⟨"Ui", [], [⟨"Old", []⟩]⟩

/-- Modules are given up, and all parameters but the one that takes the callback. -/
def giveUp : Decl -> Decl
  | .param ⟨"handler", optional, isRest, type⟩ => .param ⟨"handler", optional, isRest, type⟩
  | .param _ => .absent
  | .module _ => .absent
  | d => d

theorem callbackFunction_loses_event :
    (∃ place q e, callbackFunction.LosesFirst (.of (fun _ => [()]) giveUp) place q e ∧
      PassError.lostParam "event" "none" = .lostParam q.name e.kind) ∧
    (¬ ∃ place q e, blankFile.Loses (.of (fun _ => [()]) giveUp) place q e) ∧
    ∃ f : Decl -> Decl, (∀ c ∈ blankFile.children,
        (c.transform (.of (fun _ => [()]) giveUp)).outcome = .ok (f c)) ∧
      (blankFile.transform (.of (fun _ => [()]) giveUp)).outcome =
        .ok (giveUp (blankFile.refill f)) := by
  obtain ⟨-, first, -⟩ := (Decl.transform_in_postorder callbackFunction).2 (fun _ => [()]) giveUp
  obtain ⟨fails, -, refilled⟩ := (Decl.transform_in_postorder blankFile).2 (fun _ => [()]) giveUp
  have kept : ¬ ∃ place q e, blankFile.Loses (.of (fun _ => [()]) giveUp) place q e := by
    intro lost
    obtain ⟨cause, outcome⟩ := fails.mpr lost
    cases outcome
  exact ⟨first _ rfl, kept, refilled kept⟩

end Bindgen
