import Bindgen.Print.Module
import Bindgen.Proofs.Outline
import Bindgen.Text.Blank
import Mathlib.Data.List.Basic

/-! # How modules are laid out

The lines of a file are printed once more, each with the module whose block it
opens. What is in a block stands deeper than the line that opens it, and the first
line behind the block does not. So the next line that is not blank tells whether a
block has a body. `LaidOut` says this of the lines of any entries, whatever lines
come after them.
-/

namespace Bindgen

/-! ## Lines that open a block -/

/-- A line, with the module whose block it opens if it opens one. -/
structure Line where
  text : String
  opened : Option Module

def Line.plain (text : String) : Line :=
  ⟨text, none⟩

def blockLines (indent : String) (m : Module) (inside : List Line) : List Line :=
  if m.name.isEmpty then inside
  else .plain "" :: ⟨indent ++ "module " ++ m.name ++ " =", some m⟩ :: inside

mutual

def Decl.entryLines (indent : String) : Decl -> Printing (List Line)
  | .module ⟨name, entries⟩ => do
    let inside ← Decl.entriesLines (moduleIndent indent name) entries
    .done (blockLines indent ⟨name, entries⟩ inside)
  | d => do
    let lines ← d.printEntry indent
    .done (lines.map Line.plain)

def Decl.entriesLines (indent : String) : List Decl -> Printing (List Line)
  | [] => .done []
  | d :: ds => do
    let first ← d.entryLines indent
    let rest ← Decl.entriesLines indent ds
    .done (first ++ rest)

end

/-- The modules that are printed: those with entries. -/
def File.printed (f : File) : List Module :=
  f.modules.filter fun m => !m.entries.isEmpty

def File.lines (f : File) : Printing (List Line) := do
  let lines ← Decl.entriesLines "" (f.printed.map .module)
  .done ((("module rec " ++ f.name) :: f.opens.map ("open " ++ ·)).map Line.plain ++ lines)

theorem map_text_plain (lines : List String) :
    (lines.map Line.plain).map Line.text = lines := by
  simp [Function.comp_def, Line.plain]

theorem map_text_blockLines (indent name : String) (entries : List Decl) (inside : List Line) :
    (blockLines indent ⟨name, entries⟩ inside).map Line.text =
      moduleLines indent name (inside.map Line.text) := by
  unfold blockLines moduleLines
  split <;> rfl

mutual

theorem Decl.map_text_entryLines (indent : String) (d : Decl) :
    List.map Line.text <$> d.entryLines indent = d.printEntry indent := by
  cases d with
  | module m =>
      obtain ⟨name, entries⟩ := m
      rw [Decl.entryLines, Decl.printEntry, ← Decl.map_text_entriesLines _ entries]
      simp only [Traced.map_eq_bind, bind_assoc, Traced.done_bind, map_text_blockLines]
  | _ =>
      simp only [Decl.entryLines, Traced.map_eq_bind, bind_assoc, Traced.done_bind, map_text_plain]
      exact bind_pure _

theorem Decl.map_text_entriesLines (indent : String) (ds : List Decl) :
    List.map Line.text <$> Decl.entriesLines indent ds = Decl.printEntries indent ds := by
  cases ds with
  | nil => rfl
  | cons d ds =>
      rw [Decl.entriesLines, Decl.printEntries, ← Decl.map_text_entryLines indent d,
        ← Decl.map_text_entriesLines indent ds]
      simp only [Traced.map_eq_bind, bind_assoc, Traced.done_bind, List.map_append]

end

/-- Modules are printed like entries, but for those without entries of their own. -/
theorem printModules_eq (before : List String) (ms : List Module) :
    printModules before ms = (before ++ ·) <$>
      Decl.printEntries "" ((ms.filter fun m => !m.entries.isEmpty).map .module) := by
  induction ms generalizing before with
  | nil =>
      rw [List.filter_nil, List.map_nil, Decl.printEntries, Traced.map_eq_bind, Traced.done_bind,
        List.append_nil, printModules]
  | cons m ms ih =>
      rw [printModules]
      split
      · rename_i empty
        rw [ih, List.filter_cons_of_neg (by simp [empty])]
      · rename_i entries
        rw [List.filter_cons_of_pos (by simpa using entries), List.map_cons, Decl.printEntries]
        simp only [Module.print, ih, Traced.map_eq_bind, bind_assoc, Traced.done_bind,
          List.append_assoc]

theorem File.map_text_lines (f : File) : List.map Line.text <$> f.lines = f.print := by
  rw [File.lines, File.print, printModules_eq, ← Decl.map_text_entriesLines]
  simp only [Traced.map_eq_bind, bind_assoc, Traced.done_bind, List.map_append, map_text_plain,
    File.printed]

/-! ## Indentation -/

def leading (line : String) : Nat :=
  (line.toList.takeWhile (· == ' ')).length

def isSolid (line : String) : Bool :=
  line.toList.any fun c => !Text.isBlank c

/-- The lines under a line, up to the first that is neither blank nor deeper. -/
def blockBelow (opening : String) (after : List String) : List String :=
  after.takeWhile fun line => !isSolid line || leading opening < leading line

def hasBody (opening : String) (after : List String) : Bool :=
  (blockBelow opening after).any isSolid

/-- How deep the first line stands that is not blank. -/
def depth? (lines : List Line) : Option Nat :=
  (lines.find? fun line => isSolid line.text).map fun line => leading line.text

theorem depth?_append (lines more : List Line) :
    depth? (lines ++ more) = (depth? lines).or (depth? more) := by
  simp only [depth?, List.find?_append, Option.map_or]

/-- The first line that is not blank decides whether a block has a body. -/
theorem hasBody_eq (opening : String) (after : List Line) :
    hasBody opening (after.map Line.text) =
      ((depth? after).map fun depth => decide (leading opening < depth)).getD false := by
  induction after with
  | nil => rfl
  | cons line after ih =>
      rw [hasBody, blockBelow] at ih ⊢
      rw [List.map_cons, List.takeWhile_cons, depth?, List.find?_cons]
      cases solid : isSolid line.text with
      | true =>
          cases deeper : decide (leading opening < leading line.text) <;> simp [solid, deeper]
      | false => simpa [solid, depth?] using ih

/-- Behind `k` spaces the line starts with a character that is not blank. -/
def HeaderAt (k : Nat) (line : String) : Prop :=
  ∃ c cs, line.toList = List.replicate k ' ' ++ c :: cs ∧ Text.isBlank c = false

theorem HeaderAt.append {k : Nat} {line : String} (h : HeaderAt k line) (rest : String) :
    HeaderAt k (line ++ rest) := by
  obtain ⟨c, cs, chars, visible⟩ := h
  exact ⟨c, cs ++ rest.toList, by rw [String.toList_append, chars]; simp, visible⟩

theorem HeaderAt.isSolid {k : Nat} {line : String} (h : HeaderAt k line) :
    isSolid line = true := by
  obtain ⟨c, cs, chars, visible⟩ := h
  simp [Bindgen.isSolid, chars, visible]

theorem HeaderAt.leading {k : Nat} {line : String} (h : HeaderAt k line) : leading line = k := by
  obtain ⟨c, cs, chars, visible⟩ := h
  have notSpace : (c == ' ') = false := by
    rw [beq_eq_false_iff_ne]
    rintro rfl
    cases visible
  rw [Bindgen.leading, chars, List.takeWhile_append_of_pos (by simp), List.takeWhile_cons, notSpace]
  simp

def spaces (k : Nat) : String :=
  String.ofList (List.replicate k ' ')

theorem headerAt_spaces (k : Nat) {word : String} {c : Char} {cs : List Char}
    (chars : word.toList = c :: cs) (visible : Text.isBlank c = false) :
    HeaderAt k (spaces k ++ word) :=
  ⟨c, cs, by rw [String.toList_append, spaces, String.toList_ofList, chars], visible⟩

theorem moduleIndent_spaces (k : Nat) {name : String} (named : name.isEmpty = false) :
    moduleIndent (spaces k) name = spaces (k + 4) := by
  rw [moduleIndent, named]
  apply String.ext
  simp [spaces, indentStep, List.replicate_add]

/-! ## What has lines -/

mutual

/-- The entry has a line of its own. Values have none, and a module without a name
has only those of its entries. -/
def Outline.prints : Outline -> Bool
  | .interface _ _ | .enum _ | .typeAlias _ | .imported _ => true
  | .module name entries => !name.isEmpty || Outline.anyPrints entries
  | _ => false

def Outline.anyPrints : List Outline -> Bool
  | [] => false
  | o :: os => o.prints || Outline.anyPrints os

end

def Decl.prints (d : Decl) : Bool :=
  d.outline.prints

theorem Outline.anyPrints_eq_any (os : List Outline) :
    Outline.anyPrints os = os.any Outline.prints := by
  induction os with
  | nil => rfl
  | cons o os ih => rw [Outline.anyPrints, ih, List.any_cons]

theorem Decl.prints_module (name : String) (entries : List Decl) :
    (Decl.module ⟨name, entries⟩).prints = (!name.isEmpty || entries.any Decl.prints) := by
  rw [Decl.prints, Decl.outline, Outline.prints, Outline.anyPrints_eq_any, Decl.outlines_eq_map,
    List.any_map]
  rfl

/-- Each block is opened with the name of its module, and it has a body exactly if
an entry of the module has a line. -/
def Sound : List Line -> Prop
  | [] => True
  | line :: after =>
    (∀ m, line.opened = some m ->
      (∃ k, line.text = spaces k ++ "module " ++ m.name ++ " =") ∧
        hasBody line.text (after.map Line.text) = m.entries.any Decl.prints) ∧ Sound after

mutual

def Decl.blocks : Decl -> List Module
  | .module ⟨name, entries⟩ =>
    if name.isEmpty then Decl.allBlocks entries else ⟨name, entries⟩ :: Decl.allBlocks entries
  | _ => []

def Decl.allBlocks : List Decl -> List Module
  | [] => []
  | d :: ds => d.blocks ++ Decl.allBlocks ds

end

/-- How lines stand that are printed at a depth. They open the blocks of the
modules. They stay sound in front of lines that are not deeper. -/
structure LaidOut (k : Nat) (prints : Bool) (modules : List Module) (lines : List Line) :
    Prop where
  depth : depth? lines = if prints then some k else none
  opened : lines.filterMap Line.opened = modules
  sound : ∀ after, (∀ j ∈ depth? after, j ≤ k) -> Sound after -> Sound (lines ++ after)

theorem laidOut_nil (k : Nat) : LaidOut k false [] [] where
  depth := rfl
  opened := rfl
  sound _ _ h := h

theorem LaidOut.append {k : Nat} {p q : Bool} {ms ns : List Module} {lines more : List Line}
    (h : LaidOut k p ms lines) (h' : LaidOut k q ns more) :
    LaidOut k (p || q) (ms ++ ns) (lines ++ more) where
  depth := by
    rw [depth?_append, h.depth, h'.depth]
    cases p <;> cases q <;> rfl
  opened := by rw [List.filterMap_append, h.opened, h'.opened]
  sound after low sound := by
    rw [List.append_assoc]
    refine h.sound _ ?_ (h'.sound after low sound)
    intro j hj
    rw [depth?_append, h'.depth] at hj
    cases q with
    | true => simp at hj; omega
    | false => exact low j (by simpa using hj)

theorem filterMap_opened_plain (lines : List String) :
    (lines.map Line.plain).filterMap Line.opened = [] := by
  simp [Line.plain, Function.comp_def]

theorem Sound.plain {after : List Line} (h : Sound after) (lines : List String) :
    Sound (lines.map Line.plain ++ after) := by
  induction lines with
  | nil => exact h
  | cons line lines ih => exact ⟨nofun, ih⟩

/-- Lines that open no block. -/
theorem laidOut_plain {k : Nat} {header : String} (h : HeaderAt k header) (lines : List String) :
    LaidOut k true [] (("" :: header :: lines).map Line.plain) where
  depth := by
    have blank : isSolid "" = false := rfl
    simp [depth?, Line.plain, blank, h.isSolid, h.leading]
  opened := filterMap_opened_plain _
  sound _ _ sound := sound.plain _

/-- A block, once the lines inside it stand deeper. -/
theorem LaidOut.block {k : Nat} {m : Module} {ms : List Module} {inside : List Line}
    (named : m.name.isEmpty = false)
    (h : LaidOut (k + 4) (m.entries.any Decl.prints) ms inside) :
    LaidOut k true (m :: ms) (blockLines (spaces k) m inside) := by
  have header : HeaderAt k (spaces k ++ "module " ++ m.name ++ " =") :=
    ((headerAt_spaces k rfl (by decide)).append _).append _
  rw [blockLines, named]
  constructor
  · have blank : isSolid "" = false := rfl
    simp [depth?, Line.plain, blank, header.isSolid, header.leading]
  · simp [Line.plain, h.opened]
  · intro after low sound
    have below : ∀ j ∈ depth? after, j ≤ k + 4 := fun j hj => Nat.le_add_right_of_le (low j hj)
    have body : hasBody (spaces k ++ "module " ++ m.name ++ " =")
        ((inside ++ after).map Line.text) = m.entries.any Decl.prints := by
      rw [hasBody_eq, depth?_append, h.depth, header.leading]
      cases m.entries.any Decl.prints with
      | true => simp
      | false =>
          cases next : depth? after with
          | none => rfl
          | some j =>
              have shallow := low j next
              simp only [Bool.false_eq_true, if_false, Option.none_or, Option.map_some,
                Option.getD_some, decide_eq_false_iff_not]
              omega
    refine ⟨nofun, ?_, h.sound after below sound⟩
    rintro _ ⟨⟩
    exact ⟨⟨k, rfl⟩, body⟩

/-! ## Printing -/

theorem laidOut_interface (k : Nat) {i : Interface} {lines : List String}
    (h : (i.print (spaces k)).outcome = .ok lines) : LaidOut k true [] (lines.map Line.plain) := by
  obtain ⟨typeParams, -, h⟩ := Traced.ok_of_bind h
  obtain ⟨inherits, -, h⟩ := Traced.ok_of_bind h
  obtain ⟨members, -, ⟨⟩⟩ := Traced.ok_of_bind h
  exact laidOut_plain ((((headerAt_spaces k rfl (by decide)).append _).append _).append _) _

theorem laidOut_enum (k : Nat) (e : Enum) :
    LaidOut k true [] ((e.print (spaces k)).map Line.plain) := by
  unfold Enum.print
  split
  all_goals exact laidOut_plain (((headerAt_spaces k rfl (by decide)).append _).append _) _

theorem laidOut_alias (k : Nat) {a : Alias} {lines : List String}
    (h : (a.print (spaces k)).outcome = .ok lines) : LaidOut k true [] (lines.map Line.plain) := by
  obtain ⟨typeParams, -, h⟩ := Traced.ok_of_bind h
  obtain ⟨type, -, ⟨⟩⟩ := Traced.ok_of_bind h
  exact laidOut_plain ((((headerAt_spaces k rfl (by decide)).append _).append _).append _) _

theorem laidOut_import (k : Nat) (i : Import) :
    LaidOut k true [] ((i.print (spaces k)).map Line.plain) := by
  refine laidOut_plain ?_ []
  iterate 6 refine HeaderAt.append ?_ _
  exact headerAt_spaces k rfl (by decide)

mutual

theorem Decl.laidOut (k : Nat) (d : Decl) {lines : List Line}
    (h : (d.entryLines (spaces k)).outcome = .ok lines) :
    LaidOut k d.prints d.blocks lines := by
  cases d with
  | module m =>
      obtain ⟨name, entries⟩ := m
      rw [Decl.entryLines] at h
      obtain ⟨inside, printed, ⟨⟩⟩ := Traced.ok_of_bind h
      rw [Decl.prints_module, Decl.blocks]
      cases named : name.isEmpty with
      | true =>
          have same : moduleIndent (spaces k) name = spaces k := by rw [moduleIndent, if_pos named]
          rw [same] at printed
          simpa [blockLines, named] using Decl.allLaidOut k entries printed
      | false =>
          rw [moduleIndent_spaces k named] at printed
          simpa using (Decl.allLaidOut (k + 4) entries printed).block (m := ⟨name, entries⟩) named
  | interface i =>
      obtain ⟨printed, outcome, ⟨⟩⟩ := Traced.ok_of_bind h
      exact laidOut_interface k outcome
  | enum e =>
      obtain ⟨printed, ⟨⟩, ⟨⟩⟩ := Traced.ok_of_bind h
      exact laidOut_enum k e
  | typeAlias a =>
      obtain ⟨printed, outcome, ⟨⟩⟩ := Traced.ok_of_bind h
      exact laidOut_alias k outcome
  | imported i =>
      obtain ⟨printed, ⟨⟩, ⟨⟩⟩ := Traced.ok_of_bind h
      exact laidOut_import k i
  | _ =>
      obtain ⟨printed, ⟨⟩, ⟨⟩⟩ := Traced.ok_of_bind h
      exact laidOut_nil k

theorem Decl.allLaidOut (k : Nat) (ds : List Decl) {lines : List Line}
    (h : (Decl.entriesLines (spaces k) ds).outcome = .ok lines) :
    LaidOut k (ds.any Decl.prints) (Decl.allBlocks ds) lines := by
  cases ds with
  | nil =>
      cases h
      exact laidOut_nil k
  | cons d ds =>
      rw [Decl.entriesLines] at h
      obtain ⟨first, one, h⟩ := Traced.ok_of_bind h
      obtain ⟨rest, others, ⟨⟩⟩ := Traced.ok_of_bind h
      rw [List.any_cons, Decl.allBlocks]
      exact (Decl.laidOut k d one).append (Decl.allLaidOut k ds others)

end

end Bindgen
