import Bindgen.Proofs.Opening

/-! # Which names make a file open the browser types

A name counts wherever a type is referred to by it, in whatever role and at whatever
depth. The scan for browser types visits all these positions and no others, so it finds
exactly the names that the modules of a file mention. What else the file holds plays no
part, and nothing but the list of opened namespaces changes.
-/

namespace Bindgen

/-! ## Names that a declaration mentions -/

namespace Decl

/-- `d.Holds c` means that `c` stands directly in `d`, in one of the roles that the form
of `d` gives to others. -/
inductive Holds : Decl -> Decl -> Prop
  | interfaceTypeParam {i : Interface} {c : Decl} (h : c ∈ i.typeParams) : Holds (.interface i) c
  | inherited {i : Interface} {c : Decl} (h : c ∈ i.inherits) : Holds (.interface i) c
  | member {i : Interface} {c : Decl} (h : c ∈ i.members) : Holds (.interface i) c
  | index {p : Property} {q : Param} (h : p.index = some q) : Holds (.property p) (.param q)
  | propertyType (p : Property) : Holds (.property p) p.type
  | paramType (p : Param) : Holds (.param p) p.type
  | arrayElement (element : Decl) : Holds (.array element) element
  | functionTypeParam {s : Signature} {c : Decl} (h : c ∈ s.typeParams) : Holds (.function s) c
  | functionParam {s : Signature} {q : Param} (h : q ∈ s.params) : Holds (.function s) (.param q)
  | result (s : Signature) : Holds (.function s) s.result
  | alternative {optional : Bool} {alternatives : List Decl} {c : Decl} (h : c ∈ alternatives) :
      Holds (.union optional alternatives) c
  | aliased (a : Alias) : Holds (.typeAlias a) a.type
  | aliasTypeParam {a : Alias} {c : Decl} (h : c ∈ a.typeParams) : Holds (.typeAlias a) c
  | base (base : Decl) (arguments : List Decl) : Holds (.generic base arguments) base
  | argument {base : Decl} {arguments : List Decl} {c : Decl} (h : c ∈ arguments) :
      Holds (.generic base arguments) c
  | tupleElement {elements : List Decl} {c : Decl} (h : c ∈ elements) : Holds (.tuple elements) c
  | entry {m : Module} {c : Decl} (h : c ∈ m.entries) : Holds (.module m) c
  | fileModule {f : File} {m : Module} (h : m ∈ f.modules) : Holds (.file f) (.module m)
  | variableType (v : Variable) : Holds (.var v) v.type

theorem holds_of_mem_children {c d : Decl} (h : c ∈ d.children) : d.Holds c := by
  cases d with
  | interface i =>
      simp only [children, List.mem_append] at h
      rcases h with (h | h) | h
      · exact .interfaceTypeParam h
      · exact .inherited h
      · exact .member h
  | property p =>
      simp only [children, List.mem_append, Option.mem_toList, List.mem_singleton,
        Option.map_eq_some_iff] at h
      rcases h with ⟨q, h, rfl⟩ | rfl
      · exact .index h
      · exact .propertyType p
  | function s =>
      simp only [children, List.mem_append, List.mem_singleton, List.mem_map] at h
      rcases h with (h | ⟨q, h, rfl⟩) | rfl
      · exact .functionTypeParam h
      · exact .functionParam h
      · exact .result s
  | typeAlias a =>
      rcases List.mem_cons.mp h with rfl | h
      · exact .aliased a
      · exact .aliasTypeParam h
  | generic base arguments =>
      rcases List.mem_cons.mp h with rfl | h
      · exact .base c arguments
      · exact .argument h
  | file f =>
      obtain ⟨m, module, rfl⟩ := List.mem_map.mp h
      exact .fileModule module
  | param p =>
      obtain rfl := List.mem_singleton.mp h
      exact .paramType p
  | array element =>
      obtain rfl := List.mem_singleton.mp h
      exact .arrayElement c
  | var v =>
      obtain rfl := List.mem_singleton.mp h
      exact .variableType v
  | union optional alternatives => exact .alternative h
  | tuple elements => exact .tupleElement h
  | module m => exact .entry h
  | _ => cases h

/-- A transformation visits what stands in a declaration in any role, and nothing else. -/
theorem mem_children_iff_holds {c d : Decl} : c ∈ d.children ↔ d.Holds c := by
  refine ⟨holds_of_mem_children, fun holds => ?_⟩
  cases holds <;> simp [children, *]

/-- A type is referred to by this name at some position in the declaration. -/
inductive Mentions (name : String) : Decl -> Prop
  | here : Mentions name (.named name)
  | inside {d c : Decl} (holds : d.Holds c) (there : Mentions name c) : Mentions name d

theorem mentions_iff_mem_parts {name : String} {d : Decl} :
    d.Mentions name ↔ .named name ∈ d.parts := by
  constructor
  · intro mentions
    induction mentions with
    | here =>
        rw [parts_eq]
        exact List.mem_concat_self
    | inside holds _ part =>
        rw [parts_eq]
        exact List.mem_append_left _
          (List.mem_flatMap.mpr ⟨_, mem_children_iff_holds.mpr holds, part⟩)
  · induction d using children_induction with
    | step d ih =>
        intro part
        rw [parts_eq, List.mem_append, List.mem_singleton] at part
        rcases part with part | rfl
        · obtain ⟨c, child, part⟩ := List.mem_flatMap.mp part
          exact .inside (holds_of_mem_children child) (ih c child part)
        · exact .here

end Decl

/-! ## What the scan decides -/

theorem hasMark_iff {mark name : String} :
    hasMark mark name = true ↔ ∃ rest, name = mark ++ rest := by
  rw [hasMark, List.isPrefixOf_iff_prefix]
  constructor
  · rintro ⟨rest, chars⟩
    refine ⟨String.ofList rest, String.toList_inj.mp ?_⟩
    rw [String.toList_append, String.toList_ofList, chars]
  · rintro ⟨rest, rfl⟩
    rw [String.toList_append]
    exact List.prefix_append _ _

theorem Decl.markedName?_eq_some_iff {mark name : String} {d : Decl} :
    d.markedName? mark = some name ↔ d = .named name ∧ hasMark mark name = true := by
  cases d with
  | named other =>
      simp only [Decl.markedName?, Option.ite_none_right_eq_some, Option.some.injEq,
        Decl.named.injEq]
      constructor
      · rintro ⟨marked, rfl⟩
        exact ⟨rfl, marked⟩
      · rintro ⟨rfl, marked⟩
        exact ⟨marked, rfl⟩
  | _ => simp [Decl.markedName?]

/-- The scan finds a name exactly if a module mentions it and it starts with the mark. -/
theorem File.mem_markedNames {mark name : String} {f : File} :
    name ∈ f.markedNames mark ↔
      (∃ m ∈ f.modules, (Decl.module m).Mentions name) ∧ ∃ rest, name = mark ++ rest := by
  simp only [File.markedNames, List.mem_flatMap, Option.mem_toList, Decl.markedName?_eq_some_iff,
    ← hasMark_iff, Decl.mentions_iff_mem_parts, File.parts]
  constructor
  · rintro ⟨d, part, rfl, marked⟩
    exact ⟨part, marked⟩
  · rintro ⟨part, marked⟩
    exact ⟨_, part, rfl, marked⟩

/-- Some module mentions a name that starts with the mark. -/
def File.MentionsMarked (mark : String) (f : File) : Prop :=
  ∃ m ∈ f.modules, ∃ rest, (Decl.module m).Mentions (mark ++ rest)

theorem File.markedNames_ne_nil_iff_mentions {mark : String} {f : File} :
    f.markedNames mark ≠ [] ↔ f.MentionsMarked mark := by
  constructor
  · intro found
    obtain ⟨name, found⟩ := List.exists_mem_of_ne_nil _ found
    obtain ⟨⟨m, module, mentions⟩, rest, rfl⟩ := File.mem_markedNames.mp found
    exact ⟨m, module, rest, mentions⟩
  · rintro ⟨m, module, rest, mentions⟩
    exact List.ne_nil_of_mem (File.mem_markedNames.mpr ⟨⟨m, module, mentions⟩, rest, rfl⟩)

instance (mark : String) (f : File) : Decidable (f.MentionsMarked mark) :=
  decidable_of_iff _ File.markedNames_ne_nil_iff_mentions

/-- The name and the modules of the file stay. The namespace is opened behind the others
exactly if it is not open and some module mentions a name with the mark. -/
theorem openMarked_exact (mark opened : String) (f : File) :
    ∃ g, (f.openMarked mark opened).outcome = .ok g ∧
      g.name = f.name ∧ g.modules = f.modules ∧
      g.opens =
        if opened ∉ f.opens ∧ f.MentionsMarked mark then f.opens ++ [opened] else f.opens := by
  refine ⟨_, File.outcome_openMarked mark opened f, rfl, rfl, ?_⟩
  simp only [File.markedNames_ne_nil_iff_mentions]

-- The only browser type is an argument in the parameter of an indexer of an inner module.
example :
    let file : File := ⟨"Page", ["System"], [⟨"", [.module ⟨"Views", [
      .interface ⟨false, "Table", [], [], [
        .property ⟨none, false,
          some ⟨"key", false, false, .generic (.named "Cell") [.named "HTMLElement"]⟩,
          "Item", false, .self⟩]⟩]⟩]⟩]⟩
    (file.openMarked "HTML" "Browser").outcome.toOption.map File.opens =
      some ["System", "Browser"] := by
  decide +kernel

-- The names of what is declared and the texts of literals and imports do not count.
example :
    let file : File := ⟨"HTMLPage", ["System"], [⟨"HTMLViews", [
      .interface ⟨false, "HTMLPanel", [], [], []⟩,
      .var ⟨false, "HTMLRoot", .literal "HTML"⟩,
      .imported ⟨["HTMLPage"], "root", "HTMLElement"⟩]⟩]⟩
    (file.openMarked "HTML" "Browser").outcome.toOption.map File.opens = some ["System"] := by
  decide +kernel

end Bindgen
