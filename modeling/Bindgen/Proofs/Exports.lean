import Bindgen.Proofs.NormalForm
import Bindgen.Proofs.Statics

/-! # The values of a module and their exports

Every variable, function and static holder among the entries of a module is exported
once, in the order of the entries. A holder is reached through an accessor with the
name of its class: the suffix that the splitting of static members puts behind a name
is the one that the accessor takes off. The accessor names its holder and gives it no
type arguments, which is enough exactly if the holder has no type parameters.
-/

namespace Bindgen

/-! ## Names with and without a suffix -/

/-- The second name is the first one without the suffix at its end, or the first one
itself if there is no suffix to take off. -/
def Shortens (suffix name short : String) : Prop :=
  suffix ≠ "" ∧ name = short ++ suffix ∨ (suffix = "" ∨ ∀ s, name ≠ s ++ suffix) ∧ short = name

theorem shortens_withoutSuffix (suffix name : String) :
    Shortens suffix name (withoutSuffix suffix name) := by
  unfold withoutSuffix
  split
  · rename_i found
    rw [Bool.and_eq_true, List.isSuffixOf_iff_suffix] at found
    obtain ⟨nonempty, start, whole⟩ := found
    left
    refine ⟨?_, ?_⟩
    · rintro rfl
      simp at nonempty
    · apply String.toList_inj.mp
      rw [String.toList_append, String.toList_ofList, ← whole, List.length_append,
        Nat.add_sub_cancel, List.take_left]
  · rename_i missing
    right
    refine ⟨?_, rfl⟩
    apply Classical.byContradiction
    intro ends
    obtain ⟨nonempty, start, rfl⟩ : suffix ≠ "" ∧ ∃ s, name = s ++ suffix := by
      simpa using ends
    simp [nonempty] at missing

/-- Taking the suffix off undoes putting it on, also behind a name that ended with it
before. -/
theorem Shortens.of_append {suffix name short : String}
    (h : Shortens suffix (name ++ suffix) short) : short = name := by
  rcases h with ⟨-, same⟩ | ⟨empty | missing, rfl⟩
  · exact (String.append_left_inj _).mp same.symm
  · rw [empty, String.append_empty]
  · exact absurd rfl (missing name)

/-! ## Where modules stand -/

/-- A module stands among the modules of the file or among the entries of another
one, and nowhere else. -/
def File.ModulesAreEntries (f : File) : Prop :=
  ∀ d ∈ f.parts, d.module? = none -> ∀ c ∈ d.children, c.module? = none

instance (f : File) : Decidable f.ModulesAreEntries :=
  inferInstanceAs
    (Decidable (∀ d ∈ f.parts, d.module? = none -> ∀ c ∈ d.children, c.module? = none))

theorem Decl.Every.part {P : Decl -> Prop} {d e : Decl} (h : d.Every P) (he : e ∈ d.parts) :
    e.Every P := by
  induction d using Decl.children_induction with
  | step d ih =>
      rw [Decl.parts_eq, List.mem_append, List.mem_flatMap, List.mem_singleton] at he
      rcases he with ⟨c, hc, he⟩ | rfl
      · exact ih c hc (h.child hc) he
      · exact h

theorem Decl.moduleFree_of_every {d : Decl}
    (h : d.Every fun e => e.module? = none -> ∀ c ∈ e.children, c.module? = none)
    (plain : d.module? = none) : d.ModuleFree := by
  induction d using Decl.children_induction with
  | step d ih =>
      refine Decl.every_iff.mpr ⟨plain, fun c hc => ?_⟩
      exact ih c hc (h.child hc) (h.self plain c hc)

theorem File.ModulesAreEntries.moduleFree {f : File} (h : f.ModulesAreEntries) {m : Module}
    (hm : .module m ∈ f.parts) {d : Decl} (hd : d ∈ m.entries) (plain : d.module? = none) :
    d.ModuleFree := by
  obtain ⟨top, htop, hm⟩ := List.mem_flatMap.mp hm
  have inside := (File.forall_mem_parts.mp h top htop).part hm
  exact Decl.moduleFree_of_every (inside.child hd) plain

/-! ## Exports of one module -/

/-- The declaration with an exports interface in every module in it that needs one. -/
def Decl.exporting (name suffix : String) (d : Decl) : Decl :=
  d.rewrite (.addExports name suffix)

def Module.exporting (name suffix : String) (m : Module) : Module :=
  m.rewrite (.addExports name suffix)

/-- What stands for an entry among the exports of its module. -/
inductive Decl.ExportedAs (suffix : String) : Decl -> List Decl -> Prop where
  | var (v : Variable) : ExportedAs suffix (.var v) [.var v]
  | function (s : Signature) : ExportedAs suffix (.function s) [.function s]
  | holder (i : Interface) (short : String) (isStatic : i.isStatic = true)
      (shortens : Shortens suffix i.name short) :
      ExportedAs suffix (.interface i)
        [.property ⟨none, false, none, short, false, .named i.name⟩]
  | none (d : Decl) (noValue : d.head.isExported = false) : ExportedAs suffix d []

/-- What stands for an entry among the exports of its module once static members are
split off. The holder of a class is reached by the name of the class. -/
inductive Decl.ReachedAs (suffix : String) : Decl -> List Decl -> Prop where
  | split (i : Interface) (isStatic : i.isStatic = false)
      (hasStatic : i.hasStaticMembers = true) :
      ReachedAs suffix (.interface i)
        [.property ⟨none, false, none, i.name, false, .named (i.name ++ suffix)⟩]
  | whole (d : Decl) (members : List Decl)
      (whole : ∀ i, d = .interface i -> i.isStatic = true ∨ i.hasStaticMembers = false)
      (exported : d.ExportedAs suffix members) : ReachedAs suffix d members

section

variable (suffix : String)

theorem Decl.exportedAs (d : Decl) : d.ExportedAs suffix (d.exported? suffix).toList := by
  cases d with
  | var v => exact .var v
  | function s => exact .function s
  | interface i =>
      cases isStatic : i.isStatic with
      | true =>
          rw [Decl.exported?, if_pos isStatic]
          exact .holder i _ isStatic (shortens_withoutSuffix suffix i.name)
      | false =>
          rw [Decl.exported?, if_neg (by simp [isStatic])]
          exact .none _ isStatic
  | _ => exact .none _ rfl

/-- Of the two halves of a class the holder is exported, and the suffix that it got
comes off again. -/
theorem Decl.reachedAs (d : Decl) :
    d.ReachedAs suffix ((Decl.splitStatic suffix d).filterMap (Decl.exported? suffix)) := by
  rcases d.split_or_whole with ⟨i, rfl, isStatic, hasStatic⟩ | whole
  · have short : withoutSuffix suffix (i.name ++ suffix) = i.name :=
      (shortens_withoutSuffix suffix (i.name ++ suffix)).of_append
    have rest : (Decl.interface i.rest).exported? suffix = none :=
      if_neg (by simp [Interface.rest, isStatic])
    have holder : (Decl.interface (i.holder suffix)).exported? suffix =
        some (.property ((i.holder suffix).accessor suffix)) := rfl
    rw [Decl.splitStatic_of_split suffix isStatic hasStatic, List.filterMap_cons_none rest,
      List.filterMap_cons_some holder, List.filterMap_nil, Interface.accessor, Interface.holder,
      short]
    exact .split i isStatic hasStatic
  · rw [Decl.splitStatic_of_whole suffix whole, List.filterMap_eq_flatMap_toList,
      List.flatMap_singleton]
    exact .whole d _ whole (d.exportedAs suffix)

theorem Decl.Every.exported {Q : Decl -> Prop} (hQ : ∀ d, d.module? = none -> Q d) {d e : Decl}
    (h : d.Every Q) (he : d.exported? suffix = some e) : e.Every Q := by
  cases d with
  | interface i =>
      simp only [Decl.exported?] at he
      split at he <;> cases he
      refine Decl.every_iff.mpr ⟨hQ _ rfl, ?_⟩
      intro c hc
      rw [List.mem_singleton.mp hc]
      exact Decl.every_named (hQ _ rfl)
  | var v =>
      cases he
      exact h
  | function s =>
      cases he
      exact h
  | _ => cases he

theorem Rewriting.addExports_actsOnModules (name : String) :
    (addExports name suffix).ActsOnModules where
  other d h := by
    cases d with
    | module m => cases h
    | _ => rfl
  inside := by
    intro Q hQ m
    constructor
    · intro all e he
      have kept : e ∈ withExports name suffix m.entries := by
        rw [Module.withExports_entries]
        exact List.mem_append_right _ he
      exact all e kept
    · intro all e he
      rcases Module.mem_withExports he with rfl | he
      · refine Decl.every_iff.mpr ⟨hQ _ rfl, fun c hc => ?_⟩
        obtain ⟨d, hd, exported⟩ := List.mem_filterMap.mp hc
        exact (all d hd).exported suffix hQ exported
      · exact all e he

end

section

variable (name suffix : String)

theorem Decl.exporting_of_moduleFree {d : Decl} (h : d.ModuleFree) : d.exporting name suffix = d :=
  h.rewrite (Rewriting.addExports_actsOnModules suffix name)

theorem Decl.exporting_module (m : Module) :
    (Decl.module m).exporting name suffix = .module (m.exporting name suffix) :=
  Decl.rewrite_module _ m

theorem Decl.head_exporting (d : Decl) : (d.exporting name suffix).head = d.head :=
  Decl.head_rewrite (Rewriting.addExports_keepsHeads name suffix) d

theorem Module.entries_exporting (m : Module) :
    (m.exporting name suffix).entries =
      (if m.hasValues then
        [.interface ⟨false, name, [], [],
          m.entries.filterMap fun d => (d.exporting name suffix).exported? suffix⟩]
      else []) ++ m.entries.map (Decl.exporting name suffix) := by
  have entries : (m.exporting name suffix).entries =
      withExports name suffix (m.entries.map (Decl.exporting name suffix)) := rfl
  rw [entries, withExports_eq, List.any_map, List.filterMap_map]
  simp only [Function.comp_def, Decl.head_exporting]
  rfl

/-- An entry without modules, and a module, are exported as they were. -/
theorem Decl.exported?_exporting {d : Decl} (h : d.module? = none -> d.ModuleFree) :
    (d.exporting name suffix).exported? suffix = d.exported? suffix := by
  cases isModule : d.module? with
  | none => rw [Decl.exporting_of_moduleFree name suffix (h isModule)]
  | some m =>
      cases d with
      | module m =>
          rw [Decl.exporting_module]
          rfl
      | _ => cases isModule

theorem Decl.exported?_split {d : Decl} (h : d.module? = none -> d.ModuleFree) :
    ((Decl.splitStatic suffix (d.split suffix)).filterMap
        fun e => (e.exporting name suffix).exported? suffix) =
      (Decl.splitStatic suffix d).filterMap (Decl.exported? suffix) := by
  cases isModule : d.module? with
  | none =>
      have free := h isModule
      rw [Decl.split_of_moduleFree suffix free]
      refine List.filterMap_congr fun e he => Decl.exported?_exporting name suffix fun _ => ?_
      exact free.splitStatic (fun _ _ => rfl) he
  | some m =>
      cases d with
      | module m =>
          rw [Decl.split_module]
          rfl
      | _ => cases isModule

end

/-- The modules of a file after both passes are those of the file, each after both. -/
theorem File.module_mem_parts_exporting (name suffix : String) (f : File) (n : Module) :
    .module n ∈ ((f.rewrite (.splitStatics suffix)).rewrite (.addExports name suffix)).parts ↔
      ∃ m, .module m ∈ f.parts ∧ (m.split suffix).exporting name suffix = n := by
  have splits := File.module_mem_parts_rewrite (Rewriting.splitStatics_actsOnModules suffix) f
  rw [File.module_mem_parts_rewrite (Rewriting.addExports_actsOnModules suffix name)]
  constructor
  · rintro ⟨k, hk, same⟩
    obtain ⟨m, hm, rfl⟩ := (splits k).mp hk
    exact ⟨m, hm, same⟩
  · rintro ⟨m, hm, same⟩
    exact ⟨_, (splits _).mpr ⟨m, hm, rfl⟩, same⟩

/-- Lists that are made entry by entry, as one list of lists. -/
theorem exists_shares {R : Decl -> List Decl -> Prop} {ds : List Decl} {g : Decl -> List Decl}
    (h : ∀ d ∈ ds, R d (g d)) :
    ∃ shares, ds.flatMap g = shares.flatten ∧ List.Forall₂ R ds shares :=
  ⟨ds.map g, List.flatMap_def, List.forall₂_map_right_iff.mpr (List.forall₂_same.mpr h)⟩

/-- Every value among the entries of a module is exported once, in the order of the
entries, by an interface in front of them, and entries that are no modules stay. After
static members were split off with the same suffix, each class that had some is
exported under its own name. -/
theorem addExports_exports_values_once (name suffix : String) {f : File}
    (entries : f.ModulesAreEntries) :
    (∃ g, (f.addExports name suffix : Traced Event PassError File).outcome = .ok g ∧
      g.name = f.name ∧ g.opens = f.opens ∧
      g.modules = f.modules.map (Module.exporting name suffix) ∧
      (∀ n, .module n ∈ g.parts ↔ ∃ m, .module m ∈ f.parts ∧ m.exporting name suffix = n) ∧
      ∀ m, .module m ∈ f.parts ->
        (m.exporting name suffix).name = m.name ∧
        (∃ shares, (m.exporting name suffix).entries =
            (if m.hasValues then [.interface ⟨false, name, [], [], shares.flatten⟩] else []) ++
              m.entries.map (Decl.exporting name suffix) ∧
          List.Forall₂ (Decl.ExportedAs suffix) m.entries shares) ∧
        (∀ d ∈ m.entries, d.module? = none -> d.exporting name suffix = d) ∧
        ∀ inner, (Decl.module inner).exporting name suffix =
          .module (inner.exporting name suffix)) ∧
    ∃ s g, (f.splitStatics suffix : Traced Event PassError File).outcome = .ok s ∧
      (s.addExports name suffix : Traced Event PassError File).outcome = .ok g ∧
      (∀ n, .module n ∈ g.parts ↔
        ∃ m, .module m ∈ f.parts ∧ (m.split suffix).exporting name suffix = n) ∧
      ∀ m, .module m ∈ f.parts -> ∃ shares,
        ((m.split suffix).exporting name suffix).entries =
          (if (m.split suffix).hasValues then
            [.interface ⟨false, name, [], [], shares.flatten⟩]
          else []) ++ (m.split suffix).entries.map (Decl.exporting name suffix) ∧
        List.Forall₂ (Decl.ReachedAs suffix) m.entries shares := by
  have acts := Rewriting.addExports_actsOnModules suffix name
  refine ⟨⟨_, addExports_outcome name suffix f, rfl, rfl, rfl,
    File.module_mem_parts_rewrite acts f, fun m hm => ⟨rfl, ?_, ?_, ?_⟩⟩,
    _, _, splitStatics_outcome suffix f, addExports_outcome name suffix _, ?_, fun m hm => ?_⟩
  · obtain ⟨shares, flat, each⟩ := exists_shares fun d (_ : d ∈ m.entries) => d.exportedAs suffix
    refine ⟨shares, ?_, each⟩
    rw [Module.entries_exporting, List.filterMap_congr fun d hd =>
      Decl.exported?_exporting name suffix (entries.moduleFree hm hd),
      List.filterMap_eq_flatMap_toList, flat]
  · intro d hd plain
    exact Decl.exporting_of_moduleFree name suffix (entries.moduleFree hm hd plain)
  · exact Decl.exporting_module name suffix
  · exact File.module_mem_parts_exporting name suffix f
  · obtain ⟨shares, flat, each⟩ := exists_shares fun d (_ : d ∈ m.entries) => d.reachedAs suffix
    refine ⟨shares, ?_, each⟩
    have members : (m.split suffix).entries.filterMap
        (fun d => (d.exporting name suffix).exported? suffix) = shares.flatten := by
      rw [Module.entries_split, ← List.flatMap_def, List.filterMap_flatMap, ← flat]
      exact List.flatMap_congr fun d hd =>
        Decl.exported?_split name suffix (entries.moduleFree hm hd)
    rw [Module.entries_exporting, members]

theorem circleFile_exports_values_once :
    circleFile.ModulesAreEntries ∧
      ∃ s g n, (circleFile.splitStatics "Static" : Traced Event PassError File).outcome = .ok s ∧
        (s.addExports "IExports" "Static" : Traced Event PassError File).outcome = .ok g ∧
        .module n ∈ g.parts ∧ n.entries.head? = some (.interface ⟨false, "IExports", [], [],
          [.property ⟨none, false, none, "Circle", false, .named "CircleStatic"⟩]⟩) := by
  have placed : circleFile.ModulesAreEntries := by decide +kernel
  have round : .module ⟨"Round", [.interface circle]⟩ ∈ circleFile.parts := by decide +kernel
  obtain ⟨-, s, g, splits, exports, modules, entries⟩ :=
    addExports_exports_values_once "IExports" "Static" placed
  obtain ⟨shares, first, each⟩ := entries _ round
  refine ⟨placed, s, g, _, splits, exports, (modules _).mpr ⟨_, round, rfl⟩, ?_⟩
  rw [first]
  cases each with
  | cons share others =>
      cases others
      cases share with
      | split => rfl
      | whole _ _ whole _ => exact absurd (whole circle rfl) (by decide)

/-! ## Type arguments of accessors -/

def Decl.reference? : Decl -> Option (String × List Decl)
  | .named name => some (name, [])
  | .generic (.named name) arguments => some (name, arguments)
  | _ => none

/-- The type refers to the interface, with an argument for each type parameter. -/
def Interface.IsAppliedBy (i : Interface) (type : Decl) : Prop :=
  ∃ arguments, type.reference? = some (i.name, arguments) ∧
    arguments.length = i.typeParams.length

def Module.exportMembers (m : Module) : List Decl :=
  match m.hasValues, m.entries with
  | true, .interface i :: _ => i.members
  | _, _ => []

/-- The static holders of a module, each with the member that is exported for it. -/
def Module.accessors (m : Module) : List (Interface × Property) :=
  ((m.ownEntries.filter fun d => d.head.isExported).zip m.exportMembers).filterMap fun
    | (.interface i, .property p) => some (i, p)
    | _ => none

def Decl.arity? (chosen : Interface -> Bool) : Decl -> Option Nat
  | .interface i => if chosen i then some i.typeParams.length else none
  | _ => none

def Interface.hasHolder (i : Interface) : Bool :=
  i.isStatic || i.hasStaticMembers

section

variable {w : Rewriting}

theorem Decl.arity?_rewrite (hw : w.ActsOnModules) {chosen : Interface -> Bool}
    (same : ∀ i j, (Decl.interface i).rebuild w = .interface j -> chosen j = chosen i) (d : Decl) :
    (d.rewrite w).arity? chosen = d.arity? chosen := by
  cases d with
  | interface i =>
      rw [Decl.rewrite_of_not_module hw rfl]
      simp only [Decl.rebuild, Decl.arity?, List.length_map]
      rw [same i _ rfl]
  | module m =>
      rw [Decl.rewrite_module]
      rfl
  | _ =>
      rw [Decl.rewrite_of_not_module hw rfl]
      rfl

theorem Decl.arity?_hasHolder_split (suffix : String) (d : Decl) :
    (d.split suffix).arity? Interface.hasHolder = d.arity? Interface.hasHolder := by
  refine Decl.arity?_rewrite (Rewriting.splitStatics_actsOnModules suffix) ?_ d
  rintro i j ⟨⟩
  simp only [Interface.hasHolder, Interface.hasStaticMembers,
    hasStaticMembers_map (Decl.isStatic_rewrite (Rewriting.splitStatics_keepsHeads suffix))]

theorem Decl.arity?_isStatic_exporting (name suffix : String) (d : Decl) :
    (d.exporting name suffix).arity? Interface.isStatic = d.arity? Interface.isStatic := by
  refine Decl.arity?_rewrite (Rewriting.addExports_actsOnModules suffix name) ?_ d
  rintro i j ⟨⟩
  rfl

/-- The holder of a class takes over its type parameters. -/
theorem Decl.filterMap_arity?_splitStatic (suffix : String) (d : Decl) :
    (Decl.splitStatic suffix d).filterMap (Decl.arity? Interface.isStatic) =
      (d.arity? Interface.hasHolder).toList := by
  rcases d.split_or_whole with ⟨i, rfl, isStatic, hasStatic⟩ | whole
  · rw [Decl.splitStatic_of_split suffix isStatic hasStatic]
    simp [Decl.arity?, Interface.rest, Interface.holder, Interface.hasHolder, isStatic, hasStatic]
  · rw [Decl.splitStatic_of_whole suffix whole, List.filterMap_eq_flatMap_toList,
      List.flatMap_singleton]
    cases d with
    | interface i =>
        rcases whole i rfl with h | h <;> simp [Decl.arity?, Interface.hasHolder, h]
    | _ => rfl

end

/-- Each value stands next to what is exported for it, because both lists leave out the
same entries. -/
theorem zip_exported (suffix : String) (ds : List Decl) :
    (ds.filter fun d => d.head.isExported).zip (ds.filterMap (Decl.exported? suffix)) =
      ds.filterMap fun d => (d.exported? suffix).map fun member => (d, member) := by
  induction ds with
  | nil => rfl
  | cons d ds ih =>
      have decided := d.isSome_exported? suffix
      cases exported : d.exported? suffix with
      | none =>
          rw [exported] at decided
          rw [List.filter_cons_of_neg (by simp [← decided]), List.filterMap_cons_none exported, ih,
            List.filterMap_cons_none (by rw [exported]; rfl)]
      | some member =>
          rw [exported] at decided
          rw [List.filter_cons_of_pos (by simp [← decided]), List.filterMap_cons_some exported,
            List.zip_cons_cons, ih, List.filterMap_cons_some (by rw [exported]; rfl)]

section

variable (name suffix : String) (m : Module)

theorem Module.hasValues_exporting : (m.exporting name suffix).hasValues = m.hasValues := by
  have same := Module.hasValues_withExports name suffix
    { m with entries := m.entries.map (Decl.exporting name suffix) }
  have own : Module.hasValues { m with entries := m.entries.map (Decl.exporting name suffix) } =
      m.hasValues := by
    simp only [Module.hasValues, List.any_map, Function.comp_def, Decl.head_exporting]
  exact same.trans own

theorem Module.ownEntries_exporting :
    (m.exporting name suffix).ownEntries = m.entries.map (Decl.exporting name suffix) :=
  Module.ownEntries_withExports name suffix
    { m with entries := m.entries.map (Decl.exporting name suffix) }

theorem Module.exportMembers_exporting :
    (m.exporting name suffix).exportMembers =
      (m.entries.map (Decl.exporting name suffix)).filterMap (Decl.exported? suffix) := by
  rw [Module.exportMembers, Module.hasValues_exporting, Module.entries_exporting,
    List.filterMap_map]
  cases values : m.hasValues with
  | true => rfl
  | false =>
      symm
      apply List.filterMap_eq_nil_iff.mpr
      intro d hd
      have noValue : d.head.isExported = false := by
        simpa using List.any_eq_false.mp values d hd
      rw [← Option.isNone_iff_eq_none, ← Option.not_isSome, Function.comp_apply,
        Decl.isSome_exported?, Decl.head_exporting, noValue]
      rfl

/-- The accessors of a module are those of its static holders. -/
theorem Module.accessors_exporting :
    (m.exporting name suffix).accessors =
      ((interfacesOf (m.entries.map (Decl.exporting name suffix))).filter
        Interface.isStatic).map fun i => (i, i.accessor suffix) := by
  rw [Module.accessors, Module.ownEntries_exporting, Module.exportMembers_exporting, zip_exported,
    List.filterMap_filterMap, interfacesOf, List.filter_filterMap, List.map_filterMap]
  refine List.filterMap_congr fun d _ => ?_
  cases d with
  | interface i =>
      cases isStatic : i.isStatic <;>
        simp [Decl.exported?, Decl.interface?, Option.filter, isStatic]
  | _ => rfl

theorem Module.accessors_fst :
    (m.exporting name suffix).accessors.map Prod.fst =
      (interfacesOf (m.exporting name suffix).entries).filter Interface.isStatic := by
  rw [Module.accessors_exporting, List.map_map, Module.entries_exporting, interfacesOf,
    interfacesOf, List.filterMap_append, List.filter_append]
  -- The exports interface is no holder itself.
  split <;> exact List.map_id _

/-- An accessor names its holder and says nothing about type arguments. -/
theorem Module.accessor_reference {a : Interface × Property}
    (ha : a ∈ (m.exporting name suffix).accessors) : a.2.type.reference? = some (a.1.name, []) := by
  rw [Module.accessors_exporting] at ha
  obtain ⟨i, -, rfl⟩ := List.mem_map.mp ha
  rfl

/-- The holders that are reached have the type parameters of the classes they are for. -/
theorem Module.map_arity_accessors :
    (((m.split suffix).exporting name suffix).accessors.map fun a => a.1.typeParams.length) =
      m.entries.filterMap (Decl.arity? Interface.hasHolder) := by
  have arity : ∀ ds : List Decl, ((interfacesOf ds).filter Interface.isStatic).map
      (fun i => i.typeParams.length) = ds.filterMap (Decl.arity? Interface.isStatic) := by
    intro ds
    rw [interfacesOf, List.filter_filterMap, List.map_filterMap]
    refine List.filterMap_congr fun d _ => ?_
    cases d with
    | interface i =>
        cases isStatic : i.isStatic <;>
          simp [Decl.arity?, Decl.interface?, Option.filter, isStatic]
    | _ => rfl
  have exported : Decl.arity? Interface.isStatic ∘ Decl.exporting name suffix =
      Decl.arity? Interface.isStatic := funext (Decl.arity?_isStatic_exporting name suffix)
  rw [Module.accessors_exporting, List.map_map, Function.comp_def, arity, List.filterMap_map,
    exported, Module.entries_split, ← List.flatMap_def, List.filterMap_flatMap,
    List.filterMap_eq_flatMap_toList]
  refine List.flatMap_congr fun d _ => ?_
  rw [Decl.filterMap_arity?_splitStatic, Decl.arity?_hasHolder_split]

end

theorem Interface.isAppliedBy_iff {i : Interface} {type : Decl}
    (h : type.reference? = some (i.name, [])) : i.IsAppliedBy type ↔ i.typeParams.length = 0 := by
  constructor
  · rintro ⟨arguments, found, same⟩
    rw [h] at found
    cases found
    exact same.symm
  · exact fun none => ⟨[], h, none.symm⟩

/-- Every static holder of a module is exported once, by an accessor that refers to it
without type arguments. So the accessors of a file are applied to as many arguments as
their holders take exactly if no class with static members has type parameters. -/
theorem accessors_applied_iff (name suffix : String) (f : File) :
    ∃ s g, (f.splitStatics suffix : Traced Event PassError File).outcome = .ok s ∧
      (s.addExports name suffix : Traced Event PassError File).outcome = .ok g ∧
      (∀ n, .module n ∈ g.parts ->
        n.accessors.map Prod.fst = (interfacesOf n.entries).filter Interface.isStatic ∧
        ∀ a ∈ n.accessors, a.2.type.reference? = some (a.1.name, [])) ∧
      ((∀ n, .module n ∈ g.parts -> ∀ a ∈ n.accessors, a.1.IsAppliedBy a.2.type) ↔
        ∀ m, .module m ∈ f.parts -> ∀ i, .interface i ∈ m.entries ->
          i.isStatic = true ∨ i.hasStaticMembers = true -> i.typeParams = []) := by
  refine ⟨_, _, splitStatics_outcome suffix f, addExports_outcome name suffix _, ?_, ?_⟩
  · intro n hn
    obtain ⟨m, -, rfl⟩ := (File.module_mem_parts_exporting name suffix f n).mp hn
    exact ⟨Module.accessors_fst name suffix _, fun a => Module.accessor_reference name suffix _⟩
  · simp only [File.module_mem_parts_exporting, forall_exists_index, and_imp,
      forall_apply_eq_imp_iff₂]
    refine forall₂_congr fun m _ => ?_
    -- An accessor has no arguments, so what counts is how many its holder takes.
    have applied : (∀ a ∈ ((m.split suffix).exporting name suffix).accessors,
        a.1.IsAppliedBy a.2.type) ↔
        ∀ k ∈ m.entries.filterMap (Decl.arity? Interface.hasHolder), k = 0 := by
      rw [← Module.map_arity_accessors name suffix, List.forall_mem_map]
      exact forall₂_congr fun a ha =>
        Interface.isAppliedBy_iff (Module.accessor_reference name suffix _ ha)
    rw [applied]
    constructor
    · intro none i hi hasHolder
      have arity : (Decl.interface i).arity? Interface.hasHolder = some i.typeParams.length :=
        if_pos (by simpa [Interface.hasHolder] using hasHolder)
      exact List.length_eq_zero_iff.mp (none _ (List.mem_filterMap.mpr ⟨_, hi, arity⟩))
    · intro none k hk
      obtain ⟨d, hd, arity⟩ := List.mem_filterMap.mp hk
      cases d with
      | interface i =>
          simp only [Decl.arity?] at arity
          split at arity <;> cases arity
          rename_i hasHolder
          rw [none i hd (by simpa [Interface.hasHolder] using hasHolder), List.length_nil]
      | _ => cases arity

/-- A class with a type parameter and a static member. -/
def genericBox : Interface :=
  ⟨false, "Box", [.named "T"], [], [
    .function ⟨none, true, some "create", [], [⟨"value", false, false, .named "T"⟩],
      .generic (.named "Box") [.named "T"]⟩,
    .property ⟨none, false, none, "value", false, .named "T"⟩]⟩

def genericBoxFile : File :=
  ⟨"Boxes", [], [⟨"", [.interface genericBox]⟩]⟩

/-- The holder of the box has a type parameter, and its accessor no argument for it. -/
theorem genericBoxFile_accessor_not_applied :
    ∃ s g n a,
      (genericBoxFile.splitStatics "Static" : Traced Event PassError File).outcome = .ok s ∧
      (s.addExports "IExports" "Static" : Traced Event PassError File).outcome = .ok g ∧
      g.modules = [n] ∧ n.accessors = [a] ∧ a.1.name = "BoxStatic" ∧
      a.1.typeParams = [.named "T"] ∧ a.2.name = "Box" ∧ a.2.type = .named "BoxStatic" ∧
      ¬ a.1.IsAppliedBy a.2.type := by
  refine ⟨_, _, _, _, rfl, rfl, rfl, rfl, rfl, rfl, rfl, rfl, ?_⟩
  rintro ⟨arguments, found, same⟩
  cases found
  cases same

end Bindgen
