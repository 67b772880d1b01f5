import Bindgen.Generate
import Bindgen.Proofs.Blocks.Lines
import Bindgen.Proofs.InterfaceNames
import Bindgen.Proofs.Parts
import Bindgen.Proofs.Words

/-! # Blocks with a body

Modules without entries are left out of a file, but only the global module can be
one of them: all others are entries of it. So a module gets its block even if nothing
is in it, or only statements that were dropped. Which modules these are can be told
from the file before any pass.
-/

namespace Bindgen

/-! ## Modules that are reached -/

theorem Decl.allBlocks_eq_flatMap (ds : List Decl) :
    Decl.allBlocks ds = ds.flatMap Decl.blocks := by
  induction ds with
  | nil => rfl
  | cons d ds ih => rw [Decl.allBlocks, ih, List.flatMap_cons]

theorem Decl.mem_blocks_module {m n : Module} :
    n ∈ (Decl.module m).blocks ↔
      (n = m ∧ m.name.isEmpty = false) ∨ ∃ d ∈ m.entries, n ∈ d.blocks := by
  obtain ⟨name, entries⟩ := m
  rw [Decl.blocks, Decl.allBlocks_eq_flatMap]
  cases named : name.isEmpty with
  | true => simp [List.mem_flatMap]
  | false => simp [List.mem_flatMap]

/-- The modules with a block are reached and have names. -/
theorem File.reaches_of_mem_blocks {f : File} {m : Module} (reached : f.Reaches m) (n : Module)
    (h : n ∈ (Decl.module m).blocks) : f.Reaches n ∧ n.name.isEmpty = false := by
  rcases Decl.mem_blocks_module.mp h with ⟨rfl, named⟩ | ⟨d, hd, inside⟩
  · exact ⟨reached, named⟩
  · cases d with
    | module inner => exact File.reaches_of_mem_blocks (.nested reached hd) n inside
    | _ => cases inside
termination_by sizeOf (Decl.module m)
decreasing_by exact Decl.sizeOf_lt_of_mem_children hd

theorem File.Reaches.mem_blocks {f : File} {m : Module} (h : f.Reaches m) :
    ∃ top ∈ f.modules, ∀ n ∈ (Decl.module m).blocks, n ∈ (Decl.module top).blocks := by
  induction h with
  | top hm => exact ⟨_, hm, fun _ => id⟩
  | nested _ hinner ih =>
      obtain ⟨top, htop, inside⟩ := ih
      refine ⟨top, htop, fun n hn => inside n ?_⟩
      exact Decl.mem_blocks_module.mpr (.inr ⟨_, hinner, hn⟩)

/-! ## Before the passes -/

mutual

/-- Something of the entry can be seen in the end. Values are seen as exports or
imports, and of dropped statements nothing is left. -/
def Decl.shows : Decl -> Bool
  | .interface _ | .enum _ | .typeAlias _ | .imported _ | .var _ | .function _ => true
  | .module ⟨name, entries⟩ => !name.isEmpty || Decl.anyShows entries
  | _ => false

def Decl.anyShows : List Decl -> Bool
  | [] => false
  | d :: ds => d.shows || Decl.anyShows ds

end

theorem Decl.anyShows_eq_any (ds : List Decl) : Decl.anyShows ds = ds.any Decl.shows := by
  induction ds with
  | nil => rfl
  | cons d ds ih => rw [Decl.anyShows, ih, List.any_cons]

theorem anyPrints_exportsOutline (settings : Settings) (entries : List Decl) :
    (exportsOutline settings entries).any Outline.prints =
      entries.any (Decl.isValue settings) := by
  unfold exportsOutline
  cases entries.any (Decl.isValue settings) <;> rfl

mutual

/-- An entry is exported or has a line exactly if it shows. -/
theorem Decl.prints_preparedOutline (settings : Settings) (d : Decl) :
    (d.isValue settings || (d.preparedOutline settings).any Outline.prints) = d.shows := by
  cases d with
  | module m =>
      obtain ⟨name, entries⟩ := m
      rw [Decl.preparedOutline, Decl.shows, ← Decl.anyPrints_prepared settings entries]
      simp [Decl.isValue, Outline.prints, Word.isEmpty_escape, Outline.anyPrints_eq_any]
  | interface i =>
      rw [Decl.preparedOutline, Decl.shows]
      split <;> simp [Outline.prints]
  | var v =>
      cases converts : settings.convertImports <;> cases declared : v.declared <;>
        simp [Decl.isValue, Decl.preparedOutline, Outline.prints, Decl.shows, converts, declared]
  | function s => rfl
  | _ => simp [Decl.isValue, Decl.preparedOutline, Outline.prints, Decl.shows]

theorem Decl.anyPrints_prepared (settings : Settings) (ds : List Decl) :
    (exportsOutline settings ds ++ Decl.preparedOutlines settings ds).any Outline.prints =
      Decl.anyShows ds := by
  cases ds with
  | nil => rfl
  | cons d ds =>
      have one := Decl.prints_preparedOutline settings d
      have rest := Decl.anyPrints_prepared settings ds
      rw [List.any_append, anyPrints_exportsOutline] at rest ⊢
      rw [Decl.anyShows, ← one, ← rest, List.any_cons, Decl.preparedOutlines, List.any_append]
      ac_rfl

end

section

variable (settings : Settings) (path : List String) (m : Module)

theorem Module.prepared_outline :
    (m.prepared settings path).outline = m.preparedOutline settings :=
  Module.outline_prepared settings path m (Decl.map_outline_flatMap_prepared settings m.entries _)

theorem Module.name_prepared : (m.prepared settings path).name = Word.escape m.name :=
  (Outline.module.inj (m.prepared_outline settings path)).1

theorem Module.prints_prepared :
    (m.prepared settings path).entries.any Decl.prints = m.entries.any Decl.shows := by
  have entries := (Outline.module.inj (m.prepared_outline settings path)).2
  rw [← Decl.anyShows_eq_any, ← Decl.anyPrints_prepared settings, ← entries,
    Decl.outlines_eq_map, List.any_map]
  rfl

end

/-! ## Files -/

theorem Sound.at_block {lines before after : List Line} {line : Line} {m : Module}
    (h : Sound lines) (split : lines = before ++ line :: after) (opens : line.opened = some m) :
    (∃ k, line.text = spaces k ++ "module " ++ m.name ++ " =") ∧
      hasBody line.text (after.map Line.text) = m.entries.any Decl.prints := by
  induction before generalizing lines with
  | nil =>
      subst split
      exact h.1 m opens
  | cons first before ih =>
      subst split
      exact ih h.2 rfl

theorem File.sound_lines {f : File} {lines : List Line} (h : f.lines.outcome = .ok lines) :
    Sound lines ∧ lines.filterMap Line.opened = Decl.allBlocks (f.printed.map .module) := by
  obtain ⟨inside, printed, ⟨⟩⟩ := Traced.ok_of_bind h
  have laidOut := Decl.allLaidOut 0 _ printed
  have sound : Sound inside := by simpa using laidOut.sound [] nofun trivial
  refine ⟨sound.plain _, ?_⟩
  rw [List.filterMap_append, filterMap_opened_plain, laidOut.opened, List.nil_append]

/-- Every line that opens a block is for a module that is reached, and every module
with a name that is reached has such a line, unless it is not printed at all. -/
theorem File.opened_iff {f : File} (unnamed : ∀ m ∈ f.modules, m.name.isEmpty = true)
    {lines : List Line} (h : f.lines.outcome = .ok lines) (m : Module) :
    (∃ before line after, lines = before ++ line :: after ∧ line.opened = some m) ↔
      f.Reaches m ∧ m.name.isEmpty = false := by
  have opened : (∃ before line after, lines = before ++ line :: after ∧ line.opened = some m) ↔
      m ∈ Decl.allBlocks (f.printed.map .module) := by
    rw [← (File.sound_lines h).2, List.mem_filterMap]
    constructor
    · rintro ⟨before, line, after, rfl, opens⟩
      exact ⟨line, by simp, opens⟩
    · rintro ⟨line, hline, opens⟩
      obtain ⟨before, after, rfl⟩ := List.append_of_mem hline
      exact ⟨before, line, after, rfl, opens⟩
  rw [opened, Decl.allBlocks_eq_flatMap, List.mem_flatMap]
  constructor
  · rintro ⟨d, hd, inside⟩
    obtain ⟨top, htop, rfl⟩ := List.mem_map.mp hd
    exact File.reaches_of_mem_blocks (.top (List.mem_filter.mp htop).1) m inside
  · rintro ⟨reached, named⟩
    obtain ⟨top, htop, inside⟩ := reached.mem_blocks
    have block := inside m (Decl.mem_blocks_module.mpr (.inl ⟨rfl, named⟩))
    refine ⟨.module top, List.mem_map_of_mem (List.mem_filter.mpr ⟨htop, ?_⟩), block⟩
    rcases Decl.mem_blocks_module.mp block with ⟨rfl, -⟩ | ⟨d, hd, -⟩
    · rw [unnamed m htop] at named
      cases named
    · cases entries : top.entries with
      | nil =>
          rw [entries] at hd
          cases hd
      | cons e es => rfl

theorem File.unnamed_of_read {settings : Settings} {path rootName : String} {tree : Syntax.Node}
    {f : File} (h : (File.read settings path rootName tree).outcome = .ok f) :
    ∀ m ∈ f.modules, m.name.isEmpty = true := by
  obtain ⟨entries, rfl⟩ := File.read_eq_merge h
  rw [File.modules_merge_single]
  exact List.forall_mem_singleton.mpr rfl

/-! ## Prepared files -/

section

variable {settings : Settings} {f g : File} {marked : List Line}

theorem File.opened_prepared_iff (unnamed : ∀ m ∈ f.modules, m.name.isEmpty = true)
    (prepared : (f.prepare settings).outcome = .ok g) (printed : g.lines.outcome = .ok marked)
    (m : Module) :
    (∃ before line after, marked = before ++ line :: after ∧ line.opened = some m) ↔
      g.Reaches m ∧ m.name.isEmpty = false := by
  refine File.opened_iff ?_ printed m
  rw [File.modules_of_prepare prepared]
  refine List.forall_mem_map.mpr fun n hn => ?_
  rw [Module.name_prepared, Word.isEmpty_escape, unnamed n hn]

/-- A line that opens a block has the name of a module of the file before the passes,
and the entries of that module decide whether the block has a body. -/
theorem File.module_of_opened (unnamed : ∀ m ∈ f.modules, m.name.isEmpty = true)
    (prepared : (f.prepare settings).outcome = .ok g) (printed : g.lines.outcome = .ok marked)
    {before after : List Line} {line : Line} {m : Module}
    (split : marked = before ++ line :: after) (opens : line.opened = some m) :
    ∃ n around k, f.Reaches n ∧ n.name.isEmpty = false ∧ n.prepared settings around = m ∧
      line.text = spaces k ++ "module " ++ Word.escape n.name ++ " =" ∧
      hasBody line.text (after.map Line.text) = n.entries.any Decl.shows := by
  obtain ⟨there, named⟩ :=
    (File.opened_prepared_iff unnamed prepared printed m).mp ⟨before, line, after, split, opens⟩
  obtain ⟨n, around, reached, rfl⟩ := there.of_prepared (File.modules_of_prepare prepared)
  obtain ⟨⟨k, text⟩, body⟩ := (File.sound_lines printed).1.at_block split opens
  rw [Module.name_prepared] at named text
  rw [Module.prints_prepared] at body
  rw [Word.isEmpty_escape] at named
  exact ⟨n, around, k, reached, named, rfl, text, body⟩

/-- A module with a name has a block, and its entries decide whether there is a body. -/
theorem File.Reaches.opened {n : Module} (reached : f.Reaches n) (named : n.name.isEmpty = false)
    (unnamed : ∀ m ∈ f.modules, m.name.isEmpty = true)
    (prepared : (f.prepare settings).outcome = .ok g) (printed : g.lines.outcome = .ok marked) :
    ∃ before line after, marked = before ++ line :: after ∧ line.opened.isSome = true ∧
      hasBody line.text (after.map Line.text) = n.entries.any Decl.shows := by
  obtain ⟨around, there⟩ := reached.prepared (File.modules_of_prepare prepared)
  rw [← Word.isEmpty_escape, ← Module.name_prepared settings around] at named
  obtain ⟨before, line, after, split, opens⟩ :=
    (File.opened_prepared_iff unnamed prepared printed _).mpr ⟨there, named⟩
  have body := ((File.sound_lines printed).1.at_block split opens).2
  rw [Module.prints_prepared] at body
  exact ⟨before, line, after, split, by rw [opens]; rfl, body⟩

end

/-- Whatever tree bindings are generated from, each line that opens a block has the
name of a module that was read, and the block has a body exactly if something of an
entry of that module can be seen. So all blocks have bodies exactly if this is so for
all modules with names. -/
theorem generate_bodies {settings : Settings} {path rootName : String} {tree : Syntax.Node}
    {lines : List String}
    (generated : (generate settings path rootName tree).outcome = .ok lines) :
    ∃ f g marked, (File.read settings path rootName tree).outcome = .ok f ∧
      (f.prepare settings).outcome = .ok g ∧ g.lines.outcome = .ok marked ∧
      marked.map Line.text = lines ∧
      (∀ before line after m, marked = before ++ line :: after -> line.opened = some m ->
        ∃ n around k, f.Reaches n ∧ n.name.isEmpty = false ∧ n.prepared settings around = m ∧
          line.text = spaces k ++ "module " ++ Word.escape n.name ++ " =" ∧
          hasBody line.text (after.map Line.text) = n.entries.any Decl.shows) ∧
      ((∀ before line after, marked = before ++ line :: after -> line.opened.isSome = true ->
          hasBody line.text (after.map Line.text) = true) ↔
        ∀ n, f.Reaches n -> n.name.isEmpty = false -> n.entries.any Decl.shows = true) := by
  obtain ⟨f, read, rest⟩ := Traced.ok_of_bind generated
  obtain ⟨g, prepared, printed⟩ := Traced.ok_of_bind rest
  have read := Traced.ok_of_mapError read
  have prepared := Traced.ok_of_mapError prepared
  have unnamed := File.unnamed_of_read read
  have printed := Traced.ok_of_mapError printed
  rw [← File.map_text_lines] at printed
  obtain ⟨marked, printed, texts⟩ := Traced.ok_of_map printed
  refine ⟨f, g, marked, read, prepared, printed, texts, ?_, ?_, ?_⟩
  · intro before line after m split opens
    exact File.module_of_opened unnamed prepared printed split opens
  · intro bodies n reached named
    obtain ⟨before, line, after, split, opens, body⟩ :=
      reached.opened named unnamed prepared printed
    rw [← body]
    exact bodies before line after split opens
  · intro shows before line after split opens
    obtain ⟨m, opens⟩ := Option.isSome_iff_exists.mp opens
    obtain ⟨n, -, -, reached, named, -, -, body⟩ :=
      File.module_of_opened unnamed prepared printed split opens
    rw [body]
    exact shows n reached named

/-- A module with the given statements in it. -/
def internalTree (statements : List Syntax.Node) : Syntax.Node :=
  spelled "program" none 1 "" [
    spelled "internal_module" none 1 "" [
      spelled "identifier" (some "name") 1 "Internal" [],
      spelled "statement_block" (some "body") 1 "" statements]]

def internalModule : Module :=
  ⟨"Internal", [.typeAlias ⟨"Id", .named "string", []⟩]⟩

theorem internalTree_bodies :
    let tree := internalTree [spelled "type_alias_declaration" none 1 "" [
      spelled "type_identifier" (some "name") 1 "Id" [],
      spelled "predefined_type" (some "value") 1 "string" []]]
    ∃ marked, (generate {} "internal.d.ts" "Lib" tree).outcome = .ok (marked.map Line.text) ∧
      (∃ line ∈ marked, line.opened.isSome = true) ∧
      ∀ before line after, marked = before ++ line :: after -> line.opened.isSome = true ->
        hasBody line.text (after.map Line.text) = true := by
  intro tree
  have value : (File.read {} "internal.d.ts" "Lib" tree).outcome.toOption.map Decl.file =
      some (.file ⟨"Lib", Settings.opens {}, [⟨"", [.module internalModule]⟩]⟩) := by
    decide +kernel
  have lines : (generate {} "internal.d.ts" "Lib" tree).outcome.toOption.isSome = true := by
    decide +kernel
  obtain ⟨lines, generated⟩ := Option.isSome_iff_exists.mp lines
  obtain ⟨f, g, marked, read, prepared, printed, rfl, -, bodies⟩ :=
    generate_bodies (ok_of_toOption generated)
  have opening : ((File.read {} "internal.d.ts" "Lib" tree).outcome.toOption.bind fun f =>
      (f.prepare {}).outcome.toOption.bind fun g => g.lines.outcome.toOption).map
        (fun lines => lines.any fun line => line.opened.isSome) = some true := by
    decide +kernel
  rw [read] at value opening
  obtain rfl := Decl.file.inj (Option.some.inj value)
  have reached : ∀ n, File.Reaches ⟨"Lib", Settings.opens {}, [⟨"", [.module internalModule]⟩]⟩ n ->
      n = ⟨"", [.module internalModule]⟩ ∨ n = internalModule := by
    intro n reached
    induction reached with
    | top hn => exact .inl (List.mem_singleton.mp hn)
    | nested _ hinner ih =>
        rcases ih with rfl | rfl
        · exact .inr (by simpa using hinner)
        · simp [internalModule] at hinner
  refine ⟨marked, ok_of_toOption generated, ?_, bodies.mpr fun n hn named => ?_⟩
  · simpa [Except.toOption, prepared, printed] using opening
  · rcases reached n hn with rfl | rfl
    · cases named
    · rfl

/-- Nothing stands in the block of an empty module. -/
theorem internalTree_no_body :
    ∃ before, (generate {} "internal.d.ts" "Lib" (internalTree [])).outcome =
        .ok (before ++ ["module Internal ="]) ∧
      hasBody "module Internal =" [] = false := by
  have value : (generate {} "internal.d.ts" "Lib" (internalTree [])).outcome.toOption =
      some (["module rec Lib", "open System", "open Fable.Core", "open Fable.Import.JS", ""] ++
        ["module Internal ="]) := by
    decide +kernel
  exact ⟨_, ok_of_toOption value, rfl⟩

end Bindgen
