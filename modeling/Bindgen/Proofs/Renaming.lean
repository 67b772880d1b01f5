import Bindgen.Proofs.Calm

/-! # References and what they name

Escaping changes names and nothing else, so every part of a file has one
counterpart at the same position of the escaped file. A reference to a type
follows its interface or alias. An enum is not renamed, so a reference to one
is lost exactly where the name of the enum has to be escaped.
-/

namespace Bindgen

/-- The function keeps what is in a declaration, in order. -/
def Rewriting.KeepsChildren (w : Rewriting) : Prop :=
  ∀ d, (w.apply d).children = d.children

theorem Decl.parts_rewrite {w : Rewriting} (hw : w.KeepsChildren) (d : Decl) :
    (d.rewrite w).parts = d.parts.map (Decl.rewrite w) := by
  induction d using Decl.children_induction with
  | step d ih =>
      have children : (d.rewrite w).children = d.children.map (Decl.rewrite w) := by
        rw [Decl.rewrite_eq_apply, hw, Decl.children_rebuild]
      have inside : (d.children.map (Decl.rewrite w)).flatMap Decl.parts =
          (d.children.flatMap Decl.parts).map (Decl.rewrite w) := by
        rw [List.flatMap_map, List.map_flatMap, List.flatMap_def, List.flatMap_def,
          List.map_congr_left ih]
      rw [Decl.parts_eq, children, inside, Decl.parts_eq, List.map_append, List.map_singleton]

theorem File.parts_rewrite {w : Rewriting} (hw : w.KeepsChildren) (f : File) :
    (f.rewrite w).parts = f.parts.map (Decl.rewrite w) := by
  have module : ∀ m : Module,
      (Decl.module (m.rewrite w)).parts = (Decl.module m).parts.map (Decl.rewrite w) := by
    intro m
    rw [← Decl.rewrite_module, Decl.parts_rewrite hw]
  simp only [File.parts, File.rewrite, List.flatMap_map, List.map_flatMap, module]

theorem Rewriting.escapeNames_keepsChildren : escapeNames.KeepsChildren := by
  intro d
  cases d <;> rfl

def Decl.typeName? : Decl -> Option String
  | .interface i => some i.name
  | .enum e => some e.name
  | .typeAlias a => some a.name
  | _ => none

def Decl.isEnum : Decl -> Bool
  | .enum _ => true
  | _ => false

theorem Decl.kind_rewrite_escapeNames (d : Decl) :
    (d.rewrite .escapeNames).kind = d.kind := by
  rw [Decl.rewrite_eq_apply]
  cases d <;> rfl

theorem Decl.typeName?_rewrite_escapeNames (d : Decl) :
    (d.rewrite .escapeNames).typeName? =
      if d.isEnum then d.typeName? else d.typeName?.map Word.escape := by
  rw [Decl.rewrite_eq_apply]
  cases d <;> rfl

/-- Where a declaration and a reference carry the same name, both are found at
their positions after escaping. They carry the same name again unless the
declaration is an enum with a name that is escaped. -/
theorem escapeNames_keeps_references {f : File} {i j : Nat} {d : Decl} {name : String}
    (declared : f.parts[i]? = some d) (hname : d.typeName? = some name)
    (referred : f.parts[j]? = some (.named name)) :
    ∃ (g : File) (e : Decl),
      (f.escapeNames : Traced Event PassError File).outcome = .ok g ∧
        g.parts.length = f.parts.length ∧
        g.parts[i]? = some e ∧ e.kind = d.kind ∧
        g.parts[j]? = some (.named (Word.escape name)) ∧
        (e.typeName? = some (Word.escape name) ↔ d.isEnum = false ∨ Word.escape name = name) := by
  have parts := File.parts_rewrite Rewriting.escapeNames_keepsChildren f
  refine ⟨f.rewrite .escapeNames, d.rewrite .escapeNames, escapeNames_outcome f, ?length,
    ?declaration, d.kind_rewrite_escapeNames, ?reference, ?names⟩
  case length => rw [parts, List.length_map]
  case declaration => rw [parts, List.getElem?_map, declared, Option.map_some]
  case reference =>
      rw [parts, List.getElem?_map, referred, Option.map_some, Decl.rewrite_eq_apply]
      rfl
  case names =>
      rw [Decl.typeName?_rewrite_escapeNames, hname]
      cases d.isEnum with
      | false => simp
      | true => simp [eq_comm]

/-- A node with a successor of its own type, for a type name that is reserved. -/
def processFile : File :=
  ⟨"Scheduler", [], [⟨"", [.interface ⟨false, "process", [], [],
    [.property ⟨none, false, none, "next", true, .named "process"⟩]⟩]⟩]⟩

theorem processFile_parts : processFile.parts =
    [.named "process",
      .property ⟨none, false, none, "next", true, .named "process"⟩,
      .interface ⟨false, "process", [], [],
        [.property ⟨none, false, none, "next", true, .named "process"⟩]⟩,
      .module ⟨"", [.interface ⟨false, "process", [], [],
        [.property ⟨none, false, none, "next", true, .named "process"⟩]⟩]⟩] := by
  simp [processFile, File.parts, Decl.parts_eq, Decl.children]

theorem escapeNames_keeps_process :
    ∃ (d : Decl) (g : File) (e : Decl),
      processFile.parts[2]? = some d ∧ d.typeName? = some "process" ∧
        processFile.parts[0]? = some (.named "process") ∧
        (processFile.escapeNames : Traced Event PassError File).outcome = .ok g ∧
        g.parts[2]? = some e ∧ e.typeName? = some "\x60\x60process\x60\x60" ∧
        g.parts[0]? = some (.named "\x60\x60process\x60\x60") := by
  have spelling : Word.escape "process" = "\x60\x60process\x60\x60" := by decide
  have declared : processFile.parts[2]? = some (.interface ⟨false, "process", [], [],
      [.property ⟨none, false, none, "next", true, .named "process"⟩]⟩) := by
    rw [processFile_parts]
    rfl
  have referred : processFile.parts[0]? = some (.named "process") := by
    rw [processFile_parts]
    rfl
  obtain ⟨g, e, outcome, -, declaration, -, reference, names⟩ :=
    escapeNames_keeps_references declared rfl referred
  rw [spelling] at reference names
  exact ⟨_, g, e, declared, rfl, referred, outcome, declaration, names.mpr (.inl rfl), reference⟩

def eventKinds : Enum :=
  ⟨"event", [⟨"click", .text, some "click"⟩, ⟨"blur", .text, some "blur"⟩]⟩

/-- The kinds of events, and a source that knows the last event by the name of a
type. -/
def eventFile (last : String) : File :=
  ⟨"Dom", [], [⟨"", [.enum eventKinds,
    .interface ⟨false, "Source", [], [],
      [.property ⟨none, false, none, "last", false, .named last⟩]⟩]⟩]⟩

theorem eventFile_parts (last : String) :
    (eventFile last).parts[0]? = some (.enum eventKinds) ∧
      (eventFile last).parts[1]? = some (.named last) := by
  simp [eventFile, File.parts, Decl.parts_eq, Decl.children]

/-- The reference is escaped and the enum is not, so that the last event has a
type that nothing declares. -/
theorem escapeNames_loses_enum :
    (Decl.enum eventKinds).typeName? = some "event" ∧
      (eventFile "event").parts[0]? = some (.enum eventKinds) ∧
      (eventFile "event").parts[1]? = some (.named "event") ∧
      ((eventFile "event").escapeNames : Traced Event PassError File).outcome =
        .ok (eventFile "\x60\x60event\x60\x60") ∧
      (eventFile "\x60\x60event\x60\x60").parts[0]? = some (.enum eventKinds) ∧
      (eventFile "\x60\x60event\x60\x60").parts[1]? = some (.named "\x60\x60event\x60\x60") := by
  obtain ⟨declared, referred⟩ := eventFile_parts "event"
  obtain ⟨kept, renamed⟩ := eventFile_parts "\x60\x60event\x60\x60"
  exact ⟨rfl, declared, referred, rfl, kept, renamed⟩

end Bindgen
