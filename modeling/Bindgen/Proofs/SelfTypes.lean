import Bindgen.Proofs.Opening

/-! # Which self types are spelled out

A self type stands for the object that a member belongs to. It is spelled out in one
place only, which is the result of a method: there the interface around it is put in,
applied to its own type parameters. Self types in other places of a member, such as
the type of a property or of a parameter or one alternative of a result, stay as they
are. Places are paths of child numbers, so that this can be said of every place.
-/

namespace Bindgen

/-! ## Places -/

namespace Decl

/-- The part at a place: the child with the first number, in it the child with the
second number, and so on. -/
def partAt? : List Nat -> Decl -> Option Decl
  | [], d => some d
  | k :: ks, d => d.children[k]?.bind (partAt? ks)

theorem partAt?_append (ks ls : List Nat) (d : Decl) :
    d.partAt? (ks ++ ls) = (d.partAt? ks).bind (partAt? ls) := by
  induction ks generalizing d with
  | nil => rfl
  | cons k ks ih =>
      rw [List.cons_append, partAt?, partAt?, Option.bind_assoc]
      exact congrArg _ (funext ih)

theorem partAt?_cons_eq_some_iff {k : Nat} {ks : List Nat} {d e : Decl} :
    d.partAt? (k :: ks) = some e ↔ ∃ c, d.children[k]? = some c ∧ c.partAt? ks = some e :=
  Option.bind_eq_some_iff

theorem Every.partAt? {P : Decl -> Prop} {ks : List Nat} {d e : Decl} (h : d.Every P)
    (part : d.partAt? ks = some e) : e.Every P := by
  induction ks generalizing d with
  | nil =>
      cases part
      exact h
  | cons k ks ih =>
      obtain ⟨c, child, part⟩ := partAt?_cons_eq_some_iff.mp part
      exact ih (h.child (List.mem_of_getElem? child)) part

def blank : Decl -> Decl
  | .param _ => .param ⟨"", false, false, .absent⟩
  | .module _ => .module ⟨"", []⟩
  | _ => .absent

/-- The declaration with its children left blank: what it is on its own, and how many
children it has in which roles. -/
def shell (d : Decl) : Decl :=
  d.mapChildren blank

theorem eq_self_of_shell_eq {d : Decl} (h : d.shell = .self) : d = .self := by
  cases d <;> first | rfl | cases h

end Decl

def Interface.memberPlace (i : Interface) (k : Nat) : Nat :=
  i.typeParams.length + i.inherits.length + k

def Signature.resultPlace (s : Signature) : Nat :=
  s.typeParams.length + s.params.length

theorem Interface.getElem?_memberPlace (i : Interface) (k : Nat) :
    (Decl.interface i).children[i.memberPlace k]? = i.members[k]? := by
  have length : (i.typeParams ++ i.inherits).length ≤ i.memberPlace k := by
    simp [Interface.memberPlace]
  rw [Decl.children, List.getElem?_append_right length]
  simp [Interface.memberPlace]

theorem Signature.getElem?_resultPlace (s : Signature) :
    (Decl.function s).children[s.resultPlace]? = some s.result := by
  have length : (s.typeParams ++ s.params.map Decl.param).length = s.resultPlace := by
    simp [Signature.resultPlace]
  rw [Decl.children, ← length, List.getElem?_concat_length]

namespace Decl

/-- The place is in a member of an interface, or a member itself. -/
def InMember (root : Decl) (place : List Nat) : Prop :=
  ∃ owner i k inside, root.partAt? owner = some (.interface i) ∧
    place = owner ++ i.memberPlace k :: inside

/-- The place is the result of a function that is a member of the interface `i`, which
stands at the place `owner`. -/
def ResultOf (root : Decl) (owner : List Nat) (i : Interface) (place : List Nat) : Prop :=
  root.partAt? owner = some (.interface i) ∧
    ∃ k s, i.members[k]? = some (.function s) ∧ place = owner ++ [i.memberPlace k, s.resultPlace]

end Decl

/-! ## One declaration -/

/-- The type of the objects of the interface once the pass is through. -/
def Interface.resolvedType (i : Interface) : Decl :=
  .generic (.named i.name) (i.typeParams.map (Decl.rewrite .resolveSelf))

/-- What the pass makes of a declaration, which may be a member of an interface. -/
def Decl.resolvedIn (owner? : Option Interface) (d : Decl) : Decl :=
  match owner? with
  | none => d.rewrite .resolveSelf
  | some i => Decl.resultOf i.resolvedType (d.rewrite .resolveSelf)

def Interface.resolved (i : Interface) : Interface :=
  { i with
    typeParams := i.typeParams.map (Decl.resolvedIn none)
    inherits := i.inherits.map (Decl.resolvedIn none)
    members := i.members.map (Decl.resolvedIn (some i)) }

/-- A method that returns its object, with the type of the interface as its result. -/
def Signature.returning (i : Interface) (s : Signature) : Signature :=
  { s with
    typeParams := s.typeParams.map (Decl.rewrite .resolveSelf)
    params := s.params.map (Param.rewrite .resolveSelf)
    result := i.resolvedType }

/-- The interface that the child with the given number is a member of. -/
def Decl.ownerAt? (k : Nat) : Decl -> Option Interface
  | .interface i => if k < i.typeParams.length + i.inherits.length then none else some i
  | _ => none

theorem Interface.ownerAt?_memberPlace (i : Interface) (k : Nat) :
    (Decl.interface i).ownerAt? (i.memberPlace k) = some i :=
  if_neg (by simp [Interface.memberPlace])

theorem Decl.memberPlace_of_ownerAt? {d : Decl} {k : Nat} {i : Interface}
    (h : d.ownerAt? k = some i) : d = .interface i ∧ ∃ l, k = i.memberPlace l := by
  cases d with
  | interface j =>
      simp only [Decl.ownerAt?] at h
      split at h
      case isTrue => cases h
      case isFalse behind =>
          cases h
          refine ⟨rfl, k - (i.typeParams.length + i.inherits.length), ?_⟩
          unfold Interface.memberPlace
          omega
  | _ => cases h

section

variable {owner? : Option Interface} {d : Decl}

/-- An interface has its members changed as members of it, and the rest on its own. -/
theorem Decl.resolvedIn_interface (i : Interface) :
    (Decl.interface i).resolvedIn owner? = .interface i.resolved := by
  have whole : (Decl.interface i).rewrite .resolveSelf = .interface i.resolved := by
    rw [Decl.rewrite_eq_apply]
    simp only [Decl.rebuild, Rewriting.resolveSelf, Rewriting.ofTypes, Decl.resolveSelf,
      Interface.selfType, List.map_map]
    rfl
  cases owner? with
  | none => exact whole
  | some owner =>
      rw [Decl.resolvedIn, whole]
      rfl

theorem Decl.resolvedIn_of_returnsSelf {s : Signature} (returns : s.result = .self)
    (i : Interface) :
    (Decl.function s).resolvedIn (some i) = .function (s.returning i) := by
  obtain ⟨emit, isStatic, name, typeParams, params, result⟩ := s
  cases returns
  rw [Decl.resolvedIn, Decl.rewrite_eq_apply]
  rfl

theorem Decl.getElem?_resultPlace_resolvedIn {s : Signature} (returns : s.result = .self)
    (i : Interface) :
    ((Decl.function s).resolvedIn (some i)).children[s.resultPlace]? = some i.resolvedType := by
  have last := (s.returning i).getElem?_resultPlace
  rw [Decl.resolvedIn_of_returnsSelf returns]
  simpa [Signature.resultPlace, Signature.returning] using last

/-- Everything else only has its children changed. -/
theorem Decl.resolvedIn_eq_rebuild (other : ∀ i, d ≠ .interface i)
    (kept : owner?.isSome = true -> d.returnsSelf = false) :
    d.resolvedIn owner? = d.rebuild .resolveSelf := by
  have whole : d.rewrite .resolveSelf = d.rebuild .resolveSelf := by
    rw [Decl.rewrite_eq_apply]
    cases d with
    | interface i => exact absurd rfl (other i)
    | _ => rfl
  cases owner? with
  | none => exact whole
  | some i =>
      have returns : (d.rewrite .resolveSelf).returnsSelf = false := by
        rw [Decl.returnsSelf_rewrite_resolveSelf, kept rfl]
      rw [Decl.resolvedIn, Decl.resultOf_of_not_returnsSelf returns, whole]

/-- The three ways in which the pass acts. -/
theorem Decl.resolvedIn_cases (owner? : Option Interface) (d : Decl) :
    (∃ i, d = .interface i ∧ d.resolvedIn owner? = .interface i.resolved) ∨
    (∃ i s, owner? = some i ∧ d = .function s ∧ s.result = .self ∧
      d.resolvedIn owner? = .function (s.returning i)) ∨
    (∀ k, d.ownerAt? k = none) ∧ d.resolvedIn owner? = d.rebuild .resolveSelf := by
  cases d with
  | interface i => exact .inl ⟨i, rfl, Decl.resolvedIn_interface i⟩
  | function s =>
      by_cases returns : s.result = .self
      · cases owner? with
        | none =>
            exact .inr (.inr ⟨fun _ => rfl,
              Decl.resolvedIn_eq_rebuild (fun i same => by cases same) fun some => by cases some⟩)
        | some i =>
            exact .inr (.inl ⟨i, s, rfl, rfl, returns, Decl.resolvedIn_of_returnsSelf returns i⟩)
      · have other : (Decl.function s).returnsSelf = false := by
          obtain ⟨emit, isStatic, name, typeParams, params, result⟩ := s
          cases result <;> first | rfl | exact absurd rfl returns
        exact .inr (.inr ⟨fun _ => rfl,
          Decl.resolvedIn_eq_rebuild (fun i same => by cases same) fun _ => other⟩)
  | _ =>
      exact .inr (.inr ⟨fun _ => rfl,
        Decl.resolvedIn_eq_rebuild (fun i same => by cases same) fun _ => rfl⟩)

theorem Decl.blank_resolvedIn : (d.resolvedIn owner?).blank = d.blank := by
  obtain ⟨i, rfl, whole⟩ | ⟨i, s, -, rfl, -, whole⟩ | ⟨-, whole⟩ := d.resolvedIn_cases owner?
  · rw [whole]
    rfl
  · rw [whole]
    rfl
  · rw [whole]
    cases d <;> rfl

/-- What a declaration is on its own does not change. -/
theorem Decl.shell_resolvedIn : (d.resolvedIn owner?).shell = d.shell := by
  have each : ∀ o? e, (Decl.resolvedIn o? e).blank = e.blank := fun _ _ => blank_resolvedIn
  have types : ∀ e : Decl, (e.rewrite .resolveSelf).blank = e.blank := each none
  have params : ∀ p : Param, Param.via blank (p.rewrite .resolveSelf) = Param.via blank p :=
    fun _ => rfl
  have modules : ∀ m : Module, Module.via blank (m.rewrite .resolveSelf) = Module.via blank m :=
    fun _ => rfl
  obtain ⟨i, rfl, whole⟩ | ⟨i, s, -, rfl, returns, whole⟩ | ⟨-, whole⟩ :=
    d.resolvedIn_cases owner?
  · rw [whole]
    simp only [shell, mapChildren, Interface.resolved, List.map_map, Function.comp_def, each]
  · rw [whole]
    simp only [shell, mapChildren, Signature.returning, List.map_map, Function.comp_def, types,
      params, returns]
    rfl
  · rw [whole]
    cases d <;>
      simp only [shell, Decl.rebuild, mapChildren, List.map_map, Option.map_map, Function.comp_def,
        types, params, modules]

theorem Interface.getElem?_children_resolved (i : Interface) (k : Nat) :
    (Decl.interface i.resolved).children[k]? =
      (Decl.interface i).children[k]?.map (Decl.resolvedIn ((Decl.interface i).ownerAt? k)) := by
  have split : (Decl.interface i.resolved).children =
      (i.typeParams ++ i.inherits).map (Decl.resolvedIn none) ++
        i.members.map (Decl.resolvedIn (some i)) := by
    rw [List.map_append]
    rfl
  rw [split, Decl.children, Decl.ownerAt?, ← List.length_append]
  by_cases ahead : k < (i.typeParams ++ i.inherits).length
  · rw [if_pos ahead, List.getElem?_append_left (by rwa [List.length_map]),
      List.getElem?_append_left ahead, List.getElem?_map]
  · have behind := Nat.le_of_not_lt ahead
    rw [if_neg ahead, List.getElem?_append_right (by rwa [List.length_map]),
      List.getElem?_append_right behind, List.getElem?_map, List.length_map]

/-- A child is changed as its place says, or it is the result that is spelled out. -/
theorem Decl.getElem?_children_resolvedIn (owner? : Option Interface) {k : Nat} {c : Decl}
    (child : d.children[k]? = some c) :
    (d.resolvedIn owner?).children[k]? = some (c.resolvedIn (d.ownerAt? k)) ∨
    ∃ i s, owner? = some i ∧ d = .function s ∧ s.result = .self ∧ k = s.resultPlace := by
  obtain ⟨i, rfl, whole⟩ | ⟨i, s, rfl, rfl, returns, whole⟩ | ⟨outside, whole⟩ :=
    Decl.resolvedIn_cases owner? d
  · rw [whole, Interface.getElem?_children_resolved, child]
    exact .inl rfl
  · have length : (s.typeParams ++ s.params.map Decl.param).length = s.resultPlace := by
      simp [Signature.resultPlace]
    rw [Decl.children] at child
    by_cases ahead : k < s.resultPlace
    · have split : ((Decl.function s).resolvedIn (some i)).children =
          (s.typeParams ++ s.params.map Decl.param).map (Decl.rewrite .resolveSelf) ++
            [i.resolvedType] := by
        simp [whole, Signature.returning, Decl.children, Decl.rewrite_param]
      rw [List.getElem?_append_left (by rwa [length])] at child
      rw [split, List.getElem?_append_left (by rwa [List.length_map, length]),
        List.getElem?_map, child]
      exact .inl rfl
    · have bound := (List.getElem?_eq_some_iff.mp child).1
      rw [List.length_append, length, List.length_singleton] at bound
      exact .inr ⟨i, s, rfl, rfl, returns, by omega⟩
  · rw [whole, Decl.children_rebuild, List.getElem?_map, child, outside k]
    exact .inl rfl

theorem Decl.length_children_resolvedIn :
    (d.resolvedIn owner?).children.length = d.children.length := by
  obtain ⟨i, rfl, whole⟩ | ⟨i, s, -, rfl, -, whole⟩ | ⟨-, whole⟩ := d.resolvedIn_cases owner?
  · simp [whole, Decl.children, Interface.resolved]
  · simp [whole, Signature.returning, Decl.children]
  · rw [whole, Decl.children_rebuild, List.length_map]

end

/-! ## All places -/

section

variable {owner? : Option Interface} {d e : Decl} {k : Nat} {place : List Nat}

theorem Decl.ResultOf.inside {c : Decl} {owner : List Nat} {i : Interface}
    (result : c.ResultOf owner i place) (child : d.children[k]? = some c) :
    d.ResultOf (k :: owner) i (k :: place) := by
  obtain ⟨here, l, s, member, rfl⟩ := result
  exact ⟨Decl.partAt?_cons_eq_some_iff.mpr ⟨c, child, here⟩, l, s, member, rfl⟩

/-- A part keeps its place, unless it is a self type that is spelled out. -/
theorem Decl.partAt?_resolvedIn (owner? : Option Interface) (part : d.partAt? place = some e)
    (kept : e = .self -> (∀ owner i, ¬ d.ResultOf owner i place) ∧
      ∀ s, owner?.isSome = true -> d = .function s -> place ≠ [s.resultPlace]) :
    ∃ around?, (d.resolvedIn owner?).partAt? place = some (e.resolvedIn around?) := by
  induction place generalizing d owner? with
  | nil =>
      cases part
      exact ⟨owner?, rfl⟩
  | cons k place ih =>
      obtain ⟨c, child, part⟩ := partAt?_cons_eq_some_iff.mp part
      rcases getElem?_children_resolvedIn owner? child with
        changed | ⟨i, s, rfl, rfl, returns, rfl⟩
      · have inner : e = .self -> (∀ owner i, ¬ c.ResultOf owner i place) ∧
            ∀ s, (d.ownerAt? k).isSome = true -> c = .function s -> place ≠ [s.resultPlace] := by
          intro self
          refine ⟨fun owner i result => (kept self).1 (k :: owner) i (result.inside child), ?_⟩
          intro s some function last
          obtain ⟨i, owned⟩ := Option.isSome_iff_exists.mp some
          obtain ⟨rfl, l, rfl⟩ := memberPlace_of_ownerAt? owned
          have member : i.members[l]? = Option.some (.function s) := by
            rw [← i.getElem?_memberPlace, child, function]
          exact (kept self).1 [] i ⟨rfl, l, s, member, by rw [last]; rfl⟩
        obtain ⟨around?, same⟩ := ih (d.ownerAt? k) part inner
        exact ⟨around?, partAt?_cons_eq_some_iff.mpr ⟨_, changed, same⟩⟩
      · -- The child is the self type itself, which has no parts of its own.
        rw [s.getElem?_resultPlace, returns] at child
        cases child
        cases place with
        | nil =>
            cases part
            exact absurd rfl ((kept rfl).2 s rfl rfl)
        | cons l place => cases part

/-- A self type that is a result of a member becomes the type of the interface. -/
theorem Decl.ResultOf.spelled {owner : List Nat} {i : Interface}
    (result : d.ResultOf owner i place) (self : d.partAt? place = some .self)
    (owner? : Option Interface) :
    (d.resolvedIn owner?).partAt? owner = some (.interface i.resolved) ∧
      (d.resolvedIn owner?).partAt? place = some i.resolved.selfType := by
  obtain ⟨here, l, s, member, rfl⟩ := result
  obtain ⟨around?, same⟩ := partAt?_resolvedIn owner? here (fun self => by cases self)
  rw [resolvedIn_interface] at same
  have child : (Decl.interface i).children[i.memberPlace l]? = some (.function s) := by
    rw [i.getElem?_memberPlace, member]
  have returns : s.result = .self := by
    rw [partAt?_append, here] at self
    simpa [partAt?, child, s.getElem?_resultPlace] using self
  have changed : (Decl.interface i.resolved).children[i.memberPlace l]? =
      some ((Decl.function s).resolvedIn (some i)) := by
    rw [i.getElem?_children_resolved, child, i.ownerAt?_memberPlace]
    rfl
  refine ⟨same, ?_⟩
  rw [partAt?_append, same]
  exact partAt?_cons_eq_some_iff.mpr ⟨_, changed,
    partAt?_cons_eq_some_iff.mpr ⟨_, getElem?_resultPlace_resolvedIn returns i, rfl⟩⟩

/-- Every part of the outcome was there before, or is in a type that was put in. -/
theorem Decl.partAt?_of_resolvedIn {Q : Decl -> Prop}
    (types : d.Every fun c => ∀ i, c = .interface i -> i.resolvedType.Every Q)
    (around : ∀ i, owner? = some i -> i.resolvedType.Every Q)
    (part : (d.resolvedIn owner?).partAt? place = some e) :
    (∃ before around?, d.partAt? place = some before ∧ e = before.resolvedIn around?) ∨
      e.Every Q := by
  induction place generalizing d owner? with
  | nil =>
      cases part
      exact .inl ⟨d, owner?, rfl, rfl⟩
  | cons k place ih =>
      -- The outcome has a child there because it was there before, so the cases are those
      -- of the declaration before the pass.
      obtain ⟨after, child, part⟩ := partAt?_cons_eq_some_iff.mp part
      have bound := (List.getElem?_eq_some_iff.mp child).1
      rw [length_children_resolvedIn] at bound
      have before := List.getElem?_eq_getElem bound
      rcases getElem?_children_resolvedIn owner? before with
        changed | ⟨i, s, rfl, rfl, returns, rfl⟩
      · cases changed.symm.trans child
        have owned : ∀ i, d.ownerAt? k = some i -> i.resolvedType.Every Q :=
          fun i owned => types.self i (memberPlace_of_ownerAt? owned).1
        rcases ih (types.child (List.getElem_mem bound)) owned part with
          ⟨b, around?, was, same⟩ | all
        · exact .inl ⟨b, around?, partAt?_cons_eq_some_iff.mpr ⟨_, before, was⟩, same⟩
        · exact .inr all
      · cases (getElem?_resultPlace_resolvedIn returns i).symm.trans child
        exact .inr ((around i rfl).partAt? part)

end

/-- No type parameter speaks of the object itself. -/
def Decl.hasPlainParams : Decl -> Bool
  | .interface i => i.typeParams.all fun p => p.parts.all fun e => !e.isSelf
  | _ => true

theorem Rewriting.resolveSelf_keeps_selfless : resolveSelf.Keeps (· ≠ .self) where
  rebuild d h := by
    cases d <;> first | exact absurd rfl h | exact fun same => by cases same
  apply d h := by
    cases d with
    | interface i =>
        have selfType : i.selfType.Every (· ≠ .self) := by
          refine Decl.every_iff.mpr ⟨nofun, List.forall_mem_cons.mpr ⟨Decl.every_named nofun, ?_⟩⟩
          exact fun p hp => h.child (List.mem_append_left _ (List.mem_append_left _ hp))
        exact h.mapMembers nofun fun _ hd => hd.resultOf (fun _ _ => nofun) selfType
    | _ => exact h

theorem Interface.resolvedType_selfless {i : Interface}
    (plain : (Decl.interface i).hasPlainParams = true) : i.resolvedType.Every (· ≠ .self) := by
  have params : ∀ p ∈ i.typeParams, p.Every (· ≠ .self) := by
    rintro p hp e he rfl
    cases List.all_eq_true.mp (List.all_eq_true.mp plain p hp) _ he
  refine Decl.every_iff.mpr ⟨nofun, List.forall_mem_cons.mpr ⟨Decl.every_named nofun, ?_⟩⟩
  refine List.forall_mem_map.mpr fun p hp => ?_
  exact (params p hp).rewrite_of_keeps Rewriting.resolveSelf_keeps_selfless

theorem Decl.InMember.resolvedIn {d : Decl} {place : List Nat} (member : d.InMember place)
    (owner? : Option Interface) : (d.resolvedIn owner?).InMember place := by
  obtain ⟨owner, i, k, inside, here, rfl⟩ := member
  obtain ⟨around?, same⟩ := Decl.partAt?_resolvedIn owner? here (fun self => by cases self)
  rw [Decl.resolvedIn_interface] at same
  exact ⟨owner, i.resolved, k, inside, same, by simp [Interface.memberPlace, Interface.resolved]⟩

/-- A self type in a member of the outcome was there before. -/
theorem Decl.self_of_resolvedIn {d : Decl} {place : List Nat}
    (plain : d.Every (·.hasPlainParams = true))
    (member : (d.resolvedIn none).InMember place)
    (self : (d.resolvedIn none).partAt? place = some .self) :
    d.InMember place ∧ d.partAt? place = some .self := by
  have types : d.Every fun c => ∀ i, c = .interface i -> i.resolvedType.Every (· ≠ .self) := by
    refine plain.mono ?_
    rintro c plain i rfl
    exact Interface.resolvedType_selfless plain
  have outermost : ∀ i : Interface, none = some i -> i.resolvedType.Every (· ≠ .self) :=
    fun i some => by cases some
  obtain ⟨owner, j, k, inside, here, rfl⟩ := member
  constructor
  · rcases partAt?_of_resolvedIn types outermost here with ⟨before, around?, was, same⟩ | all
    · have shells := congrArg shell same
      rw [shell_resolvedIn] at shells
      cases before with
      | interface i =>
          rw [resolvedIn_interface] at same
          cases same
          exact ⟨owner, i, k, inside, was, by simp [Interface.memberPlace, Interface.resolved]⟩
      | _ => cases shells
    · rw [partAt?_append, here] at self
      exact absurd rfl (all.partAt? self).self
  · rcases partAt?_of_resolvedIn types outermost self with ⟨before, around?, was, same⟩ | all
    · have shells := congrArg shell same
      rw [shell_resolvedIn] at shells
      rw [was, eq_self_of_shell_eq shells.symm]
    · exact absurd rfl all.self

/-! ## A whole module -/

variable {ω : Type}

/-- Spelling out the self types of a module always succeeds. A self type that is the
result of a member of an interface becomes that interface, applied to its own type
parameters. Everything else stays what it is in its place, other self types included.
So no self type is left in a member exactly if there were none but results. -/
theorem resolveSelf_spells_out_results (m : Module) :
    ∃ n, (m.resolveSelf : Traced ω PassError Module).outcome = .ok n ∧
      (∀ owner i place, (Decl.module m).ResultOf owner i place ->
        (Decl.module m).partAt? place = some .self ->
        ∃ j : Interface, (Decl.module n).partAt? owner = some (.interface j) ∧
          (Decl.interface j).shell = (Decl.interface i).shell ∧
          (Decl.module n).partAt? place = some (.generic (.named j.name) j.typeParams)) ∧
      (∀ place d, (Decl.module m).partAt? place = some d ->
        (d = .self -> ∀ owner i, ¬ (Decl.module m).ResultOf owner i place) ->
        ∃ e, (Decl.module n).partAt? place = some e ∧ e.shell = d.shell) ∧
      ((Decl.module m).Every (·.hasPlainParams = true) ->
        ((∀ place, (Decl.module n).InMember place ->
            (Decl.module n).partAt? place ≠ some .self) ↔
          ∀ place, (Decl.module m).InMember place ->
            (Decl.module m).partAt? place = some .self ->
            ∃ owner i, (Decl.module m).ResultOf owner i place)) := by
  have whole : Decl.module (m.rewriteEntries .resolveSelf) = (Decl.module m).resolvedIn none :=
    (Decl.rewrite_module .resolveSelf m).symm
  have stays : ∀ place d, (Decl.module m).partAt? place = some d ->
      (d = .self -> ∀ owner i, ¬ (Decl.module m).ResultOf owner i place) ->
      ∃ e, ((Decl.module m).resolvedIn none).partAt? place = some e ∧ e.shell = d.shell := by
    intro place d part kept
    obtain ⟨around?, same⟩ := Decl.partAt?_resolvedIn none part fun self => ⟨kept self, nofun⟩
    exact ⟨_, same, Decl.shell_resolvedIn⟩
  refine ⟨_, resolveSelf_outcome m, ?_⟩
  rw [whole]
  refine ⟨?_, stays, fun plain => ⟨?_, ?_⟩⟩
  · intro owner i place result self
    obtain ⟨interface, spelled⟩ := result.spelled self none
    have same : (Decl.interface i).resolvedIn none = .interface i.resolved :=
      Decl.resolvedIn_interface i
    refine ⟨i.resolved, interface, ?_, spelled⟩
    rw [← same, Decl.shell_resolvedIn]
  · intro gone place member self
    refine Classical.byContradiction fun other => ?_
    obtain ⟨e, same, shell⟩ := stays place .self self fun _ owner i result =>
      other ⟨owner, i, result⟩
    rw [Decl.eq_self_of_shell_eq shell] at same
    exact gone place (member.resolvedIn _) same
  · intro results place member self
    obtain ⟨before, was⟩ := Decl.self_of_resolvedIn plain member self
    obtain ⟨owner, i, result⟩ := results place before was
    cases (result.spelled was none).2.symm.trans self

/-- A cell of a sheet: a copy of it, what comes of joining it with another one, and the
cell that owns it are cells of the same kind. -/
def cell : Interface :=
  ⟨false, "Cell", [.named "T"], [],
    [.function ⟨none, false, some "copy", [], [], .self⟩,
      .function ⟨none, false, some "join", [], [⟨"other", false, false, .self⟩],
        .union true [.self]⟩,
      .property ⟨none, false, none, "owner", false, .self⟩]⟩

def sheetModule : Module :=
  ⟨"", [.interface cell]⟩

/-- The owner is a property, so its type is no result. -/
theorem owner_not_result (owner : List Nat) (i : Interface) :
    ¬ (Decl.module sheetModule).ResultOf owner i [0, 3, 0] := by
  rintro ⟨here, k, s, member, place⟩
  have split : [0] ++ [3, 0] = owner ++ [i.memberPlace k, s.resultPlace] := place
  obtain ⟨rfl, last⟩ := List.append_inj' split rfl
  cases here
  have third : 3 = 1 + k := (List.cons.inj last).1
  obtain rfl : k = 2 := by omega
  cases member

theorem resolveSelf_spells_out_copy :
    (Decl.module sheetModule).ResultOf [0] cell [0, 1, 0] ∧
      (Decl.module sheetModule).partAt? [0, 1, 0] = some .self ∧
      (Decl.module sheetModule).partAt? [0, 3, 0] = some .self ∧
      (Decl.module sheetModule).Every (·.hasPlainParams = true) ∧
      ∃ n, (sheetModule.resolveSelf : Traced Event PassError Module).outcome = .ok n ∧
        (∃ j : Interface, (Decl.module n).partAt? [0] = some (.interface j) ∧
          (Decl.interface j).shell = (Decl.interface cell).shell ∧
          (Decl.module n).partAt? [0, 1, 0] =
            some (.generic (.named j.name) j.typeParams)) ∧
        (∃ e, (Decl.module n).partAt? [0, 3, 0] = some e ∧ e.shell = .self) ∧
        ¬ ∀ place, (Decl.module n).InMember place ->
          (Decl.module n).partAt? place ≠ some .self := by
  have result : (Decl.module sheetModule).ResultOf [0] cell [0, 1, 0] :=
    ⟨rfl, 0, ⟨none, false, some "copy", [], [], .self⟩, rfl, rfl⟩
  have plain : (Decl.module sheetModule).Every (·.hasPlainParams = true) :=
    List.all_eq_true.mp (by decide +kernel)
  obtain ⟨n, outcome, spelled, stays, none⟩ :=
    resolveSelf_spells_out_results (ω := Event) sheetModule
  refine ⟨result, rfl, rfl, plain, n, outcome, spelled [0] cell [0, 1, 0] result rfl,
    stays [0, 3, 0] .self rfl fun _ => owner_not_result, fun gone => ?_⟩
  obtain ⟨owner, i, other⟩ :=
    (none plain).mp gone [0, 3, 0] ⟨[0], cell, 2, [0], rfl, rfl⟩ rfl
  exact owner_not_result owner i other

/-- The parameter of `join`, its result that may be missing and the owner still speak of
the object itself. -/
theorem resolveSelf_leaves_self_types :
    ∃ n, (sheetModule.resolveSelf : Traced Event PassError Module).outcome = .ok n ∧
      ∀ place ∈ [[0, 2, 0, 0], [0, 2, 1, 0], [0, 3, 0]],
        (Decl.module n).InMember place ∧ (Decl.module n).partAt? place = some .self := by
  have resolved : (Decl.interface cell).resolvedIn none = .interface cell.resolved :=
    Decl.resolvedIn_interface cell
  have here : (Decl.module (sheetModule.rewriteEntries .resolveSelf)).partAt? [0] =
      some (.interface cell.resolved) :=
    congrArg some resolved
  have member : ∀ k inside, (Decl.module (sheetModule.rewriteEntries .resolveSelf)).InMember
      ([0] ++ cell.resolved.memberPlace k :: inside) :=
    fun k inside => ⟨[0], cell.resolved, k, inside, here, rfl⟩
  refine ⟨_, resolveSelf_outcome sheetModule, List.forall_mem_cons.mpr ⟨?_,
    List.forall_mem_cons.mpr ⟨?_, List.forall_mem_singleton.mpr ?_⟩⟩⟩
  · exact ⟨member 1 [0, 0], by rfl⟩
  · exact ⟨member 1 [1, 0], by rfl⟩
  · exact ⟨member 2 [0], by rfl⟩

end Bindgen
