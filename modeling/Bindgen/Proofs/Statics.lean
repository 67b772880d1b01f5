import Bindgen.Proofs.Merge.Contents
import Bindgen.Proofs.Opening
import Mathlib.Data.List.Perm.Basic

/-! # Static members in holders of their own

Static members are split off in the modules of a file and nowhere else, at whatever
depth a module stands. In the place of an interface with static members stand two,
the rest of it and the holder, which share its members out among them; all other
entries stay. What has a module inside is not left alone, because its modules are
split as well: only what is free of modules is.
-/

namespace Bindgen

/-- No module stands in the declaration, at any depth. -/
def Decl.ModuleFree (d : Decl) : Prop :=
  d.Every fun e => e.module? = none

instance (d : Decl) : Decidable d.ModuleFree :=
  inferInstanceAs (Decidable (∀ e ∈ d.parts, e.module? = none))

/-! ## Rewritings of modules -/

/-- The rewriting changes modules only, and what is in their entries is in the new
entries. -/
structure Rewriting.ActsOnModules (w : Rewriting) : Prop where
  other : ∀ d, d.module? = none -> w.apply d = d
  inside : ∀ {Q : Decl -> Prop}, (∀ d, d.module? = none -> Q d) -> ∀ m : Module,
    (∀ e ∈ (w.onModule m).entries, e.Every Q) ↔ ∀ e ∈ m.entries, e.Every Q

section

variable {w : Rewriting}

theorem Decl.ModuleFree.rewrite (hw : w.ActsOnModules) {d : Decl} (h : d.ModuleFree) :
    d.rewrite w = d :=
  Decl.rewrite_eq_self (h.mono hw.other)

theorem Decl.rewrite_of_not_module (hw : w.ActsOnModules) {d : Decl} (h : d.module? = none) :
    d.rewrite w = d.rebuild w := by
  have rebuilt : (d.rebuild w).module? = none := by
    cases d with
    | module m => cases h
    | _ => rfl
  rw [Decl.rewrite_eq_apply, hw.other _ rebuilt]

theorem Rewriting.ActsOnModules.transports (hw : w.ActsOnModules) (n : Module) :
    w.Transports (fun d => ∀ m, d = .module m -> m.rewrite w ≠ n) (· ≠ .module n) := by
  intro d
  have apart : ∀ e : Decl, e.module? = none -> e ≠ .module n := by
    rintro e plain rfl
    cases plain
  cases d with
  | module m =>
      have whole : Decl.module (m.rewrite w) ≠ .module n ↔
          ∀ k, Decl.module m = .module k -> k.rewrite w ≠ n := by
        constructor
        · rintro differ k same rfl
          exact differ (by rw [Decl.module.inj same])
        · exact fun differ same => differ m rfl (Decl.module.inj same)
      rw [← Decl.rewrite_eq_apply, Decl.rewrite_module, Decl.every_iff, whole, Module.rewrite]
      exact and_congr_right fun _ => hw.inside apart _
  | _ =>
      rw [hw.other _ rfl, Decl.every_iff]
      exact and_congr_left fun _ => iff_of_true (apart _ rfl) (by rintro _ ⟨⟩)

/-- The modules in what is rewritten are the modules that were in it, rewritten. -/
theorem Decl.module_mem_parts_rewrite (hw : w.ActsOnModules) (d : Decl) (n : Module) :
    .module n ∈ (d.rewrite w).parts ↔ ∃ m, .module m ∈ d.parts ∧ m.rewrite w = n := by
  -- That the module is missing is a property of all parts, and such properties are
  -- what a rewriting transports.
  have none := (hw.transports n).every d
  constructor
  · intro found
    apply Classical.byContradiction
    intro missing
    refine none.mpr ?_ _ found rfl
    rintro e he m rfl same
    exact missing ⟨m, he, same⟩
  · rintro ⟨m, hm, same⟩
    apply Classical.byContradiction
    intro missing
    have every : (d.rewrite w).Every (· ≠ .module n) := by
      rintro e he rfl
      exact missing he
    exact none.mp every _ hm m rfl same

theorem File.module_mem_parts_rewrite (hw : w.ActsOnModules) (f : File) (n : Module) :
    .module n ∈ (f.rewrite w).parts ↔ ∃ m, .module m ∈ f.parts ∧ m.rewrite w = n := by
  have each : ∀ k : Module, .module n ∈ (Decl.module (k.rewrite w)).parts ↔
      ∃ m, .module m ∈ (Decl.module k).parts ∧ m.rewrite w = n := by
    intro k
    rw [← Decl.rewrite_module, Decl.module_mem_parts_rewrite hw]
  simp only [File.parts, File.rewrite, List.mem_flatMap, List.mem_map]
  constructor
  · rintro ⟨-, ⟨k, hk, rfl⟩, found⟩
    obtain ⟨m, hm, same⟩ := (each k).mp found
    exact ⟨m, ⟨k, hk, hm⟩, same⟩
  · rintro ⟨m, ⟨k, hk, hm⟩, same⟩
    exact ⟨_, ⟨k, hk, rfl⟩, (each k).mpr ⟨m, hm, same⟩⟩

end

/-! ## The two halves of an interface -/

/-- The interface without its static members. -/
def Interface.rest (i : Interface) : Interface :=
  { i with members := i.instanceMembers }

theorem Interface.members_perm (i : Interface) :
    (i.instanceMembers ++ i.staticMembers).Perm i.members := by
  have halves := List.filter_append_perm (fun m => !m.isStatic) i.members
  simpa [Interface.instanceMembers, Interface.staticMembers] using halves

theorem Decl.splitStatic_of_split {i : Interface} (suffix : String) (isStatic : i.isStatic = false)
    (hasStatic : i.hasStaticMembers = true) :
    Decl.splitStatic suffix (.interface i) = [.interface i.rest, .interface (i.holder suffix)] :=
  if_neg (by simp [isStatic, hasStatic])

theorem Decl.splitStatic_of_whole {d : Decl} (suffix : String)
    (whole : ∀ i, d = .interface i -> i.isStatic = true ∨ i.hasStaticMembers = false) :
    Decl.splitStatic suffix d = [d] := by
  cases d with
  | interface i => exact if_pos (by rcases whole i rfl with h | h <;> simp [h])
  | _ => rfl

/-- Either the entry is split or it is left whole. -/
theorem Decl.split_or_whole (d : Decl) :
    (∃ i, d = .interface i ∧ i.isStatic = false ∧ i.hasStaticMembers = true) ∨
      ∀ i, d = .interface i -> i.isStatic = true ∨ i.hasStaticMembers = false := by
  cases d with
  | interface i =>
      cases isStatic : i.isStatic with
      | true =>
          right
          rintro j ⟨⟩
          exact .inl isStatic
      | false =>
          cases hasStatic : i.hasStaticMembers with
          | true => exact .inl ⟨i, rfl, isStatic, hasStatic⟩
          | false =>
              right
              rintro j ⟨⟩
              exact .inr hasStatic
  | _ => exact .inr nofun

/-- Each child of an interface is in one of its halves, so the halves hold nothing
else and leave nothing out. -/
theorem Decl.every_splitStatic {Q : Decl -> Prop} (hQ : ∀ d, d.module? = none -> Q d)
    (suffix : String) (d : Decl) :
    (∀ e ∈ Decl.splitStatic suffix d, e.Every Q) ↔ d.Every Q := by
  constructor
  · intro pieces
    rcases d.split_or_whole with ⟨i, rfl, isStatic, hasStatic⟩ | whole
    · rw [Decl.splitStatic_of_split suffix isStatic hasStatic, List.forall_mem_cons,
        List.forall_mem_singleton] at pieces
      obtain ⟨rest, holder⟩ := pieces
      refine Decl.every_iff.mpr ⟨hQ _ rfl, fun c hc => ?_⟩
      rcases List.mem_append.mp hc with hc | hc
      · exact rest.child (List.mem_append_left _ hc)
      · cases static : c.isStatic with
        | true =>
            have moved : c ∈ i.staticMembers := List.mem_filter.mpr ⟨hc, static⟩
            exact holder.child (List.mem_append_right _ moved)
        | false =>
            have kept : c ∈ i.instanceMembers := List.mem_filter.mpr ⟨hc, by simp [static]⟩
            exact rest.child (List.mem_append_right _ kept)
    · rw [Decl.splitStatic_of_whole suffix whole] at pieces
      exact pieces d (List.mem_singleton.mpr rfl)
  · exact fun whole e he => whole.splitStatic (fun _ _ => hQ _ rfl) he

theorem Rewriting.splitStatics_actsOnModules (suffix : String) :
    (splitStatics suffix).ActsOnModules where
  other d h := by
    cases d with
    | module m => cases h
    | _ => rfl
  inside hQ m := by
    simp only [splitStatics, List.forall_mem_flatMap]
    exact forall₂_congr fun d _ => Decl.every_splitStatic hQ suffix d

/-! ## Entries and what stands in their place -/

/-- The declaration with static members split off in all modules in it. -/
def Decl.split (suffix : String) (d : Decl) : Decl :=
  d.rewrite (.splitStatics suffix)

def Module.split (suffix : String) (m : Module) : Module :=
  m.rewrite (.splitStatics suffix)

/-- What stands in the place of an entry: the two halves of an interface with static
members, and for every other entry the entry itself. -/
structure Decl.SplitsInto (suffix : String) (d : Decl) (place : List Decl) : Prop where
  halves : ∀ i, d = .interface i -> i.isStatic = false -> i.hasStaticMembers = true ->
    (∀ c ∈ i.members, c.ModuleFree) ->
    ∃ rest holder : Interface, place = [.interface rest, .interface holder] ∧
      rest = ⟨false, i.name, i.typeParams.map (Decl.split suffix),
        i.inherits.map (Decl.split suffix), i.members.filter fun c => !c.isStatic⟩ ∧
      holder = ⟨true, i.name ++ suffix, i.typeParams.map (Decl.split suffix), [],
        i.members.filter Decl.isStatic⟩ ∧
      (rest.members ++ holder.members).Perm i.members
  whole : (∀ i, d = .interface i -> i.isStatic = true ∨ i.hasStaticMembers = false) ->
    place = [d.split suffix]

section

variable (suffix : String)

theorem Decl.split_of_moduleFree {d : Decl} (h : d.ModuleFree) : d.split suffix = d :=
  h.rewrite (Rewriting.splitStatics_actsOnModules suffix)

theorem Decl.map_split_of_moduleFree {ds : List Decl} (h : ∀ d ∈ ds, d.ModuleFree) :
    ds.map (Decl.split suffix) = ds := by
  have same : ∀ d ∈ ds, d.split suffix = id d := fun d hd =>
    Decl.split_of_moduleFree suffix (h d hd)
  rw [List.map_congr_left same, List.map_id]

theorem Decl.split_module (m : Module) :
    (Decl.module m).split suffix = .module (m.split suffix) :=
  Decl.rewrite_module _ m

theorem Decl.split_interface (i : Interface) :
    (Decl.interface i).split suffix = .interface { i with
      typeParams := i.typeParams.map (Decl.split suffix)
      inherits := i.inherits.map (Decl.split suffix)
      members := i.members.map (Decl.split suffix) } :=
  Decl.rewrite_of_not_module (Rewriting.splitStatics_actsOnModules suffix) rfl

theorem Module.entries_split (m : Module) :
    (m.split suffix).entries =
      (m.entries.map fun d => Decl.splitStatic suffix (d.split suffix)).flatten := by
  simp only [Module.split, Module.rewrite, Rewriting.splitStatics, List.flatMap_def,
    List.map_map]
  rfl

/-- Splitting makes an interface of nothing else, and decides nothing about it. -/
theorem Decl.of_split_eq_interface {d : Decl} {j : Interface}
    (h : d.split suffix = .interface j) :
    ∃ i, d = .interface i ∧ i.isStatic = j.isStatic ∧
      i.hasStaticMembers = j.hasStaticMembers := by
  have head := Decl.head_rewrite (Rewriting.splitStatics_keepsHeads suffix) d
  rw [← Decl.split, h] at head
  cases d with
  | interface i =>
      simp only [Decl.head, id, Head.interface.injEq] at head
      exact ⟨i, rfl, head.1.symm, head.2.1.symm⟩
  | _ => cases head

theorem Decl.splitsInto (d : Decl) :
    d.SplitsInto suffix (Decl.splitStatic suffix (d.split suffix)) where
  halves := by
    rintro i rfl isStatic hasStatic free
    rw [Decl.split_interface, Decl.map_split_of_moduleFree suffix free, isStatic]
    exact ⟨_, _, Decl.splitStatic_of_split suffix rfl hasStatic, rfl, rfl, i.members_perm⟩
  whole h := by
    apply Decl.splitStatic_of_whole
    intro j same
    obtain ⟨i, isInterface, isStatic, hasStatic⟩ := Decl.of_split_eq_interface suffix same
    rw [← isStatic, ← hasStatic]
    exact h i isInterface

end

/-! ## All members of a file -/

def Decl.ownInterfaces : Decl -> List Interface
  | .module m => interfacesOf m.entries
  | _ => []

def Decl.interfacesIn (d : Decl) : List Interface :=
  d.parts.flatMap Decl.ownInterfaces

def Decl.membersIn (d : Decl) : List Decl :=
  d.interfacesIn.flatMap Interface.members

def File.interfaces (f : File) : List Interface :=
  f.parts.flatMap Decl.ownInterfaces

def File.members (f : File) : List Decl :=
  f.interfaces.flatMap Interface.members

theorem Decl.interfacesIn_eq (d : Decl) :
    d.interfacesIn = d.children.flatMap Decl.interfacesIn ++ d.ownInterfaces := by
  rw [Decl.interfacesIn, Decl.parts_eq, List.flatMap_append, List.flatMap_assoc,
    List.flatMap_singleton]
  rfl

theorem Decl.membersIn_eq (d : Decl) :
    d.membersIn =
      d.children.flatMap Decl.membersIn ++ d.ownInterfaces.flatMap Interface.members := by
  rw [Decl.membersIn, Decl.interfacesIn_eq, List.flatMap_append, List.flatMap_assoc]
  rfl

theorem Decl.ModuleFree.membersIn {d : Decl} (h : d.ModuleFree) : d.membersIn = [] := by
  have none : d.interfacesIn = [] := by
    refine List.flatMap_eq_nil_iff.mpr fun e he => ?_
    have plain := h e he
    cases e with
    | module m => cases plain
    | _ => rfl
  rw [Decl.membersIn, none, List.flatMap_nil]

theorem flatMap_membersIn_of_moduleFree {ds : List Decl} (h : ∀ d ∈ ds, d.ModuleFree) :
    ds.flatMap Decl.membersIn = [] :=
  List.flatMap_eq_nil_iff.mpr fun d hd => (h d hd).membersIn

/-- The halves of an interface share its type parameters, so nothing is found twice
in them if no module stands there. -/
theorem Decl.flatMap_membersIn_splitStatic (suffix : String) {d : Decl}
    (free : ∀ i, d = .interface i -> ∀ c ∈ i.typeParams, c.ModuleFree) :
    ((Decl.splitStatic suffix d).flatMap Decl.membersIn).Perm d.membersIn := by
  rcases d.split_or_whole with ⟨i, rfl, isStatic, hasStatic⟩ | whole
  · have params := flatMap_membersIn_of_moduleFree (free i rfl)
    have members := i.members_perm.flatMap_right Decl.membersIn
    rw [Decl.splitStatic_of_split suffix isStatic hasStatic]
    simp only [List.flatMap_cons, List.flatMap_nil, List.append_nil, Decl.membersIn_eq,
      Decl.children, Decl.ownInterfaces, List.flatMap_append, Interface.rest, Interface.holder,
      params, List.nil_append, List.append_assoc]
    rw [List.flatMap_append] at members
    exact members.append_left _
  · rw [Decl.splitStatic_of_whole suffix whole, List.flatMap_singleton]

theorem Decl.flatMap_members_splitStatic (suffix : String) (d : Decl) :
    ((interfacesOf (Decl.splitStatic suffix d)).flatMap Interface.members).Perm
      (d.interface?.toList.flatMap Interface.members) := by
  rcases d.split_or_whole with ⟨i, rfl, isStatic, hasStatic⟩ | whole
  · rw [Decl.splitStatic_of_split suffix isStatic hasStatic]
    simpa [interfacesOf, Decl.interface?, Interface.rest, Interface.holder] using i.members_perm
  · rw [Decl.splitStatic_of_whole suffix whole, interfacesOf, List.filterMap_eq_flatMap_toList,
      List.flatMap_singleton]

/-- Members and type parameters of the interface are free of modules. -/
def Interface.ModuleFree (i : Interface) : Prop :=
  ∀ c ∈ i.typeParams ++ i.members, c.ModuleFree

instance (i : Interface) : Decidable i.ModuleFree :=
  inferInstanceAs (Decidable (∀ c ∈ i.typeParams ++ i.members, c.ModuleFree))

theorem Decl.members_split (suffix : String) {d : Decl}
    (plain : ∀ i, d = .interface i -> i.ModuleFree) :
    (d.split suffix).interface?.toList.flatMap Interface.members =
      d.interface?.toList.flatMap Interface.members := by
  cases d with
  | interface i =>
      have members := Decl.map_split_of_moduleFree suffix fun c hc =>
        plain i rfl c (List.mem_append_right _ hc)
      rw [Decl.split_interface, members]
      rfl
  | module m =>
      rw [Decl.split_module]
      rfl
  | _ =>
      rw [Decl.split, Decl.rewrite_of_not_module (Rewriting.splitStatics_actsOnModules suffix) rfl]
      rfl

theorem Decl.typeParams_split (suffix : String) {d : Decl}
    (plain : ∀ i, d = .interface i -> i.ModuleFree) {j : Interface}
    (h : d.split suffix = .interface j) : ∀ c ∈ j.typeParams, c.ModuleFree := by
  obtain ⟨i, rfl, -⟩ := Decl.of_split_eq_interface suffix h
  have free : ∀ c ∈ i.typeParams, c.ModuleFree := fun c hc =>
    plain i rfl c (List.mem_append_left _ hc)
  rw [Decl.split_interface, Decl.map_split_of_moduleFree suffix free] at h
  cases h
  exact free

theorem Decl.membersIn_split_of_not_module (suffix : String) {d : Decl} (h : d.module? = none)
    (inside : ∀ c ∈ d.children, (c.split suffix).membersIn.Perm c.membersIn) :
    (d.split suffix).membersIn.Perm d.membersIn := by
  have own : d.ownInterfaces = [] ∧ (d.rebuild (.splitStatics suffix)).ownInterfaces = [] := by
    cases d with
    | module m => cases h
    | _ => exact ⟨rfl, rfl⟩
  rw [Decl.split, Decl.rewrite_of_not_module (Rewriting.splitStatics_actsOnModules suffix) h,
    Decl.membersIn_eq, Decl.membersIn_eq d, Decl.children_rebuild, own.1, own.2,
    List.flatMap_map, List.flatMap_nil, List.append_nil, List.append_nil]
  exact .flatMap_left _ inside

theorem Module.membersIn_split (suffix : String) {m : Module}
    (plain : ∀ e ∈ m.entries, ∀ i, e = .interface i -> i.ModuleFree)
    (inside : ∀ e ∈ m.entries, (e.split suffix).membersIn.Perm e.membersIn) :
    (Decl.module (m.split suffix)).membersIn.Perm (Decl.module m).membersIn := by
  rw [Decl.membersIn_eq, Decl.membersIn_eq (.module m)]
  simp only [Decl.children, Decl.ownInterfaces, Module.entries_split, ← List.flatMap_def,
    List.flatMap_assoc, interfacesOf, List.filterMap_flatMap,
    List.filterMap_eq_flatMap_toList _ m.entries]
  refine .append (.flatMap_left _ fun e he => ?_) (.flatMap_left _ fun e he => ?_)
  · have free := fun j => Decl.typeParams_split suffix (plain e he) (j := j)
    exact (Decl.flatMap_membersIn_splitStatic suffix free).trans (inside e he)
  · rw [← Decl.members_split suffix (plain e he)]
    exact Decl.flatMap_members_splitStatic suffix (e.split suffix)

/-- Splitting moves members and neither drops nor doubles one. -/
theorem Decl.membersIn_split (suffix : String) {d : Decl}
    (plain : ∀ i ∈ d.interfacesIn, i.ModuleFree) : (d.split suffix).membersIn.Perm d.membersIn := by
  induction d using Decl.children_induction with
  | step d ih =>
      rw [Decl.interfacesIn_eq, List.forall_mem_append, List.forall_mem_flatMap] at plain
      have inside : ∀ c ∈ d.children, (c.split suffix).membersIn.Perm c.membersIn :=
        fun c hc => ih c hc (plain.1 c hc)
      cases d with
      | module m =>
          rw [Decl.split_module]
          refine Module.membersIn_split suffix ?_ inside
          rintro e he i rfl
          exact plain.2 i (List.mem_filterMap.mpr ⟨_, he, rfl⟩)
      | _ => exact Decl.membersIn_split_of_not_module suffix rfl inside

theorem File.members_split (suffix : String) {f : File} (plain : ∀ i ∈ f.interfaces, i.ModuleFree) :
    (f.rewrite (.splitStatics suffix)).members.Perm f.members := by
  have each : ∀ g : File, g.members = g.modules.flatMap fun m => (Decl.module m).membersIn := by
    intro g
    simp only [File.members, File.interfaces, File.parts, List.flatMap_assoc, Decl.membersIn,
      Decl.interfacesIn]
  rw [each, each, File.rewrite, List.flatMap_map]
  refine .flatMap_left _ fun m hm => ?_
  rw [← Decl.rewrite_module]
  refine Decl.membersIn_split suffix fun i hi => plain i ?_
  obtain ⟨d, hd, hi⟩ := List.mem_flatMap.mp hi
  exact List.mem_flatMap.mpr ⟨d, List.mem_flatMap.mpr ⟨m, hm, hd⟩, hi⟩

/-- Splitting a file splits its modules at all depths. In each of them an interface
with static members is replaced by its two halves, next to each other, and nothing
else changes but the modules inside; no member of the file is lost or doubled. -/
theorem splitStatics_shares_out_members (suffix : String) (f : File) :
    ∃ g, (f.splitStatics suffix : Traced Event PassError File).outcome = .ok g ∧
      g.name = f.name ∧ g.opens = f.opens ∧ g.modules = f.modules.map (Module.split suffix) ∧
      (∀ n, .module n ∈ g.parts ↔ ∃ m, .module m ∈ f.parts ∧ m.split suffix = n) ∧
      (∀ m, .module m ∈ f.parts -> (m.split suffix).name = m.name ∧
        ∃ places, (m.split suffix).entries = places.flatten ∧
          List.Forall₂ (Decl.SplitsInto suffix) m.entries places) ∧
      (∀ m, (Decl.module m).split suffix = .module (m.split suffix)) ∧
      (∀ d : Decl, d.ModuleFree -> d.split suffix = d) ∧
      ((∀ i ∈ f.interfaces, i.ModuleFree) -> g.members.Perm f.members) := by
  refine ⟨_, splitStatics_outcome suffix f, rfl, rfl, rfl, ?_, ?_, Decl.split_module suffix,
    fun d => Decl.split_of_moduleFree suffix, File.members_split suffix⟩
  · exact File.module_mem_parts_rewrite (Rewriting.splitStatics_actsOnModules suffix) f
  · intro m _
    refine ⟨rfl, _, m.entries_split suffix, ?_⟩
    rw [List.forall₂_map_right_iff, List.forall₂_same]
    exact fun d _ => d.splitsInto suffix

def circle : Interface :=
  ⟨false, "Circle", [.named "T"], [.named "Shape"], [
    .property ⟨none, false, none, "radius", false, .named "float"⟩,
    .function ⟨none, true, some "unit", [], [], .named "Circle"⟩,
    .function ⟨none, false, some "area", [], [], .named "float"⟩,
    .property ⟨none, true, none, "count", false, .named "float"⟩]⟩

/-- The class stands in a module that is an entry of another one. -/
def circleFile : File :=
  ⟨"Shapes", ["System"], [⟨"", [.module ⟨"Round", [.interface circle]⟩,
    .var ⟨true, "version", .named "string"⟩]⟩]⟩

theorem circleFile_shares_out_members :
    (∀ i ∈ circleFile.interfaces, i.ModuleFree) ∧
      ∃ g n, (circleFile.splitStatics "Static" : Traced Event PassError File).outcome = .ok g ∧
        .module n ∈ g.parts ∧ n.name = "Round" ∧
        n.entries = [
          .interface ⟨false, "Circle", [.named "T"], [.named "Shape"], [
            .property ⟨none, false, none, "radius", false, .named "float"⟩,
            .function ⟨none, false, some "area", [], [], .named "float"⟩]⟩,
          .interface ⟨true, "CircleStatic", [.named "T"], [], [
            .function ⟨none, true, some "unit", [], [], .named "Circle"⟩,
            .property ⟨none, true, none, "count", false, .named "float"⟩]⟩] ∧
        g.members.Perm circleFile.members := by
  have free : ∀ i ∈ circleFile.interfaces, i.ModuleFree := by decide +kernel
  have round : .module ⟨"Round", [.interface circle]⟩ ∈ circleFile.parts := by decide +kernel
  obtain ⟨g, outcome, -, -, -, modules, entries, -, -, members⟩ :=
    splitStatics_shares_out_members "Static" circleFile
  obtain ⟨name, places, flat, each⟩ := entries _ round
  refine ⟨free, g, _, outcome, (modules _).mpr ⟨_, round, rfl⟩, name, ?_, members free⟩
  rw [flat]
  cases each with
  | cons split others =>
      cases others
      obtain ⟨rest, holder, rfl, rfl, rfl, -⟩ :=
        split.halves circle rfl rfl (by decide) (by decide +kernel)
      rfl

def widgetBase : Module :=
  ⟨"Base", [.interface ⟨false, "Node", [], [],
    [.function ⟨none, true, some "create", [], [], .unit⟩]⟩]⟩

/-- A class with a static member that inherits a whole module. -/
def widget : Interface :=
  ⟨false, "Widget", [], [.module widgetBase], [.function ⟨none, true, some "show", [], [], .unit⟩]⟩

def widgetFile : File :=
  ⟨"Ui", [], [⟨"", [.interface widget]⟩]⟩

/-- The rest of the widget does not inherit what the widget inherits, because the
module in it is split as well. -/
theorem widgetFile_inherits_split :
    widget.isStatic = false ∧ widget.hasStaticMembers = true ∧
      (∀ c ∈ widget.members, c.ModuleFree) ∧
      ∃ g rest holder,
        (widgetFile.splitStatics "Static" : Traced Event PassError File).outcome = .ok g ∧
        g.modules = [⟨"", [.interface rest, .interface holder]⟩] ∧
        rest.inherits ≠ widget.inherits := by
  refine ⟨rfl, by decide, by decide +kernel, _, _, _, rfl, rfl, ?_⟩
  decide +kernel

end Bindgen
