import Bindgen.Generate
import Bindgen.Proofs.OneLine.Passes
import Bindgen.Proofs.OneLine.Reading

/-! # Lines that are printed

A file whose parts are all on one line is printed to lines that have no line
feed in them. With what reading copies and with the settings on one line, this
holds of everything that is generated. Nothing on the way breaks a line or
mends a broken one: a parameter pattern over two lines comes out as it is.
-/

namespace Bindgen

open Text

def OneLineEach (lines : List String) : Prop :=
  ∀ line ∈ lines, Text.OneLine line

/-! ## Members -/

theorem yields_printType {ε : Type} {d : Decl} (h : d.Every Decl.OneLine) :
    (d.printType : Traced Event ε String).Yields Text.OneLine where
  ok := by
    rintro _ ⟨⟩
    exact h.oneLine_typeText
  error := nofun

theorem yields_printTypeParams {ε : Type} {ds : List Decl} (h : ∀ d ∈ ds, d.Every Decl.OneLine) :
    (printTypeParams ds : Traced Event ε String).Yields Text.OneLine where
  ok := by
    rintro _ ⟨⟩
    apply oneLine_argumentsText
    rw [Decl.typeTexts_eq_map]
    exact List.forall_mem_map.mpr fun d hd => (h d hd).oneLine_typeText
  error := nofun

theorem oneLine_emitAttribute {emit : Option String}
    (h : ∀ template, emit = some template -> Text.OneLine template) :
    Text.OneLine (emitAttribute emit) := by
  cases emit with
  | none => decide
  | some template =>
      simp only [emitAttribute, oneLine_append, (h template rfl).encode, and_true]
      decide

theorem oneLine_paramsText {params : List String} (h : OneLineEach params) :
    Text.OneLine (paramsText params) := by
  unfold paramsText
  split
  · decide
  · exact oneLine_join (by decide) h

section

variable {p : Param} (h : (Decl.param p).Every Decl.OneLine)

include h

theorem yields_printParam (function : String) : (p.print function).Yields Text.OneLine := by
  have name : Text.OneLine p.name := h.self p.name List.mem_cons_self
  have type : p.type.Every Decl.OneLine := h.child List.mem_cons_self
  have mark : Text.OneLine p.mark := by
    unfold Param.mark
    split <;> decide
  unfold Param.print
  split
  · split
    case h_1 element isArray =>
        have element : element.Every Decl.OneLine := by
          rw [isArray] at type
          exact type.child List.mem_cons_self
        refine (yields_printType element).bind fun text htext => Traced.ends_done ?_
        simp only [oneLine_append, mark, name, htext, and_true]
        decide
    case h_2 => exact Traced.ends_fail trivial
  · refine (yields_printType type).bind fun text htext => Traced.ends_done ?_
    simp only [oneLine_append, mark, name, htext, and_true, true_and]
    decide

theorem yields_printIndex : (printIndex (some p)).Yields Text.OneLine := by
  have name : Text.OneLine p.name := h.self p.name List.mem_cons_self
  have type : p.type.Every Decl.OneLine := h.child List.mem_cons_self
  refine (yields_printType type).bind fun text htext => Traced.ends_done ?_
  simp only [oneLine_append, name, htext, and_true, true_and]
  decide

end

theorem yields_printSignature {s : Signature} (h : (Decl.function s).Every Decl.OneLine) :
    s.print.Yields Text.OneLine := by
  have emit : Text.OneLine (emitAttribute s.emit) := by
    apply oneLine_emitAttribute
    intro template htemplate
    exact h.self template (List.mem_append_right _ (Option.mem_toList.mpr htemplate))
  unfold Signature.print
  split
  case h_1 => exact Traced.ends_fail trivial
  case h_2 name named =>
      have hname : Text.OneLine name :=
        h.self name (List.mem_append_left _ (Option.mem_toList.mpr named))
      have each : ∀ p ∈ s.params, (Param.print name p).Yields Text.OneLine := by
        intro p hp
        have param : .param p ∈ (Decl.function s).children := by simp [Decl.children, hp]
        exact yields_printParam (h.child param) name
      have result : s.result.Every Decl.OneLine := h.child (by simp [Decl.children])
      refine (Traced.ends_traverse each).bind fun params hparams => ?_
      refine (yields_printType result).bind fun text htext => Traced.ends_done ?_
      simp only [oneLine_append, emit, hname, oneLine_paramsText hparams, htext, and_true, true_and]
      decide

theorem yields_printProperty {p : Property} (h : (Decl.property p).Every Decl.OneLine) :
    p.print.Yields Text.OneLine := by
  have name : Text.OneLine p.name := h.self p.name List.mem_cons_self
  have emit : Text.OneLine (emitAttribute p.emit) := by
    apply oneLine_emitAttribute
    intro template htemplate
    exact h.self template (List.mem_cons_of_mem _ (Option.mem_toList.mpr htemplate))
  have index : (printIndex p.index).Yields Text.OneLine := by
    cases hindex : p.index with
    | none =>
        have nothing : Text.OneLine "" := by decide
        exact Traced.ends_done nothing
    | some i =>
        have param : .param i ∈ (Decl.property p).children := by simp [Decl.children, hindex]
        exact yields_printIndex (h.child param)
  have type : p.type.Every Decl.OneLine := h.child (by simp [Decl.children])
  refine index.bind fun indexText hindex => ?_
  refine (yields_printType type).bind fun text htext => Traced.ends_done ?_
  simp only [oneLine_append, emit, name, hindex, htext, oneLine_optionMark, and_true, true_and]
  decide

theorem yields_printMember {d : Decl} (h : d.Every Decl.OneLine) :
    d.printMember.Yields Text.OneLine := by
  cases d with
  | function s => exact yields_printSignature h
  | property p => exact yields_printProperty h
  | _ => exact yields_printType h

/-! ## Entries -/

theorem oneLine_bodyLines {lines : List String} (h : OneLineEach lines) :
    OneLineEach (bodyLines lines) := by
  unfold bodyLines
  split
  · exact List.forall_mem_singleton.mpr (by decide)
  · exact h

theorem oneLine_indentStep : Text.OneLine indentStep := by
  decide

theorem oneLine_caseText {name : String} (h : Text.OneLine name) :
    Text.OneLine (caseText name) := by
  have identifier : Text.OneLine (Word.enumName name) := Word.lineFeed_not_mem_enumName name
  unfold caseText
  split
  · simp only [oneLine_append, h, and_true]
    decide
  · simp only [oneLine_append, h.encode, identifier, and_true]
    decide

theorem Enum.numeric_of_mem {e : Enum} (h : e.type = .numeric) :
    ∀ c ∈ e.cases, c.type = .numeric := by
  intro c hc
  unfold Enum.type at h
  split at h
  · cases h
  · split at h
    · cases h
    · cases type : c.type <;> simp_all

/-- An empty line, a line that opens the block, and what is inside. -/
theorem oneLine_block {opening : String} (hopening : Text.OneLine opening) {body : List String}
    (hbody : OneLineEach body) : OneLineEach ("" :: opening :: body) := by
  have nothing : Text.OneLine "" := by decide
  exact List.forall_mem_cons.mpr ⟨nothing, List.forall_mem_cons.mpr ⟨hopening, hbody⟩⟩

section

variable {indent : String} (hindent : Text.OneLine indent)

include hindent

theorem oneLine_inside {line : String} (h : Text.OneLine line) :
    Text.OneLine (indent ++ indentStep ++ line) := by
  simp only [oneLine_append, hindent, oneLine_indentStep, h, and_true]

theorem yields_printInterface {i : Interface} (h : (Decl.interface i).Every Decl.OneLine) :
    (i.print indent).Yields OneLineEach := by
  have name : Text.OneLine i.name := h.self i.name List.mem_cons_self
  have typeParams : ∀ p ∈ i.typeParams, p.Every Decl.OneLine := fun p hp =>
    h.child (by simp [Decl.children, hp])
  have inherits : ∀ t ∈ i.inherits, (printInherit t).Yields Text.OneLine := by
    intro t ht
    have type : t.Every Decl.OneLine := h.child (by simp [Decl.children, ht])
    refine (yields_printType type).bind fun text htext => Traced.ends_done ?_
    exact oneLine_append.mpr ⟨by decide, htext⟩
  have members : ∀ m ∈ i.members, m.printMember.Yields Text.OneLine := fun m hm =>
    yields_printMember (h.child (by simp [Decl.children, hm]))
  refine (yields_printTypeParams typeParams).bind fun params hparams => ?_
  refine (Traced.ends_traverse inherits).bind fun inherited hinherited => ?_
  refine (Traced.ends_traverse members).bind fun lines hlines => Traced.ends_done ?_
  have body := oneLine_bodyLines (List.forall_mem_append.mpr ⟨hinherited, hlines⟩)
  refine oneLine_block ?_ (List.forall_mem_map.mpr fun line hline =>
    oneLine_inside hindent (body line hline))
  simp only [oneLine_append, hindent, name, hparams, and_true, true_and]
  decide

theorem oneLine_printEnum {e : Enum} (h : (Decl.enum e).OneLine) :
    OneLineEach (e.print indent) := by
  have name : Text.OneLine e.name := h e.name List.mem_cons_self
  have cases : ∀ c ∈ e.cases, ∀ s ∈ c.texts, Text.OneLine s := fun c hc s hs =>
    h s (List.mem_cons_of_mem _ (List.mem_flatMap.mpr ⟨c, hc, hs⟩))
  have caseLine : ∀ c ∈ e.cases, Text.OneLine (caseText c.name) := fun c hc =>
    oneLine_caseText (cases c hc c.name List.mem_cons_self)
  unfold Enum.print
  split
  case h_1 =>
      refine oneLine_block ?_ (List.forall_mem_singleton.mpr (oneLine_inside hindent (by decide)))
      simp only [oneLine_append, hindent, name, and_true, true_and]
      decide
  case h_2 numeric =>
      refine oneLine_block ?_ (List.forall_mem_map.mpr fun c hc => ?_)
      · simp only [oneLine_append, hindent, name, and_true, true_and]
        decide
      · have value : Text.OneLine (caseValueText c.value) := by
          cases hvalue : c.value with
          | none => decide
          | some value =>
              have number : value ∈ c.texts := by
                simp [EnumCase.texts, Enum.numeric_of_mem numeric c hc, hvalue]
              exact oneLine_append.mpr ⟨by decide, cases c hc value number⟩
        exact oneLine_inside hindent (oneLine_append.mpr ⟨caseLine c hc, value⟩)
  case h_3 =>
      refine oneLine_block ?_ (List.forall_mem_map.mpr fun c hc =>
        oneLine_inside hindent (caseLine c hc))
      simp only [oneLine_append, hindent, name, and_true, true_and]
      decide

theorem yields_printAlias {a : Alias} (h : (Decl.typeAlias a).Every Decl.OneLine) :
    (a.print indent).Yields OneLineEach := by
  have name : Text.OneLine a.name := h.self a.name List.mem_cons_self
  have typeParams : ∀ p ∈ a.typeParams, p.Every Decl.OneLine := fun p hp =>
    h.child (List.mem_cons_of_mem _ hp)
  have type : a.type.Every Decl.OneLine := h.child List.mem_cons_self
  refine (yields_printTypeParams typeParams).bind fun params hparams => ?_
  refine (yields_printType type).bind fun text htext => Traced.ends_done ?_
  refine oneLine_block ?_ (List.forall_mem_singleton.mpr (oneLine_inside hindent htext))
  simp only [oneLine_append, hindent, name, hparams, and_true, true_and]
  decide

theorem oneLine_printImport {i : Import} (h : (Decl.imported i).OneLine) :
    OneLineEach (i.print indent) := by
  have binding : Text.OneLine i.binding := h i.binding List.mem_cons_self
  have type : Text.OneLine i.type := h i.type (List.mem_cons_of_mem _ List.mem_cons_self)
  have path : Text.OneLine (Text.join "." i.path) := by
    refine oneLine_join (by decide) fun s hs => ?_
    exact h s (List.mem_cons_of_mem _ (List.mem_cons_of_mem _ hs))
  refine oneLine_block ?_ nofun
  simp only [oneLine_append, hindent, path.encode, binding, type, and_true, true_and]
  decide

theorem oneLine_moduleIndent (name : String) : Text.OneLine (moduleIndent indent name) := by
  unfold moduleIndent
  split
  · exact hindent
  · exact oneLine_append.mpr ⟨hindent, oneLine_indentStep⟩

theorem oneLine_moduleLines {name : String} (hname : Text.OneLine name) {inside : List String}
    (hinside : OneLineEach inside) : OneLineEach (moduleLines indent name inside) := by
  unfold moduleLines
  split
  · exact hinside
  · refine oneLine_block ?_ hinside
    simp only [oneLine_append, hindent, hname, and_true, true_and]
    decide

omit hindent in
theorem yields_printEntries {ds : List Decl}
    (h : ∀ d ∈ ds, (d.printEntry indent).Yields OneLineEach) :
    (Decl.printEntries indent ds).Yields OneLineEach := by
  induction ds with
  | nil => exact Traced.ends_done nofun
  | cons d ds ih =>
      obtain ⟨first, rest⟩ := List.forall_mem_cons.mp h
      rw [Decl.printEntries]
      refine first.bind fun lines hlines => ?_
      refine (ih rest).bind fun more hmore => ?_
      exact Traced.ends_done (List.forall_mem_append.mpr ⟨hlines, hmore⟩)

end

theorem yields_printEntry {d : Decl} (h : d.Every Decl.OneLine) {indent : String}
    (hindent : Text.OneLine indent) : (d.printEntry indent).Yields OneLineEach := by
  induction d using Decl.children_induction generalizing indent with
  | step d ih =>
      cases d with
      | interface i => exact yields_printInterface hindent h
      | enum e => exact Traced.ends_done (oneLine_printEnum hindent h.self)
      | typeAlias a => exact yields_printAlias hindent h
      | imported i => exact Traced.ends_done (oneLine_printImport hindent h.self)
      | module m =>
          obtain ⟨name, entries⟩ := m
          have inside : (Decl.printEntries (moduleIndent indent name) entries).Yields
              OneLineEach :=
            yields_printEntries fun e he =>
              ih e he (h.child he) (oneLine_moduleIndent hindent name)
          rw [Decl.printEntry]
          refine inside.bind fun lines hlines => Traced.ends_done ?_
          exact oneLine_moduleLines hindent (h.self name List.mem_cons_self) hlines
      | _ => exact Traced.ends_done (List.forall_mem_nil _)

/-! ## Files -/

theorem yields_printModules {ms : List Module}
    (h : ∀ m ∈ ms, (Decl.module m).Every Decl.OneLine) {before : List String}
    (hbefore : OneLineEach before) : (printModules before ms).Yields OneLineEach := by
  induction ms generalizing before with
  | nil => exact Traced.ends_done hbefore
  | cons m ms ih =>
      obtain ⟨first, rest⟩ := List.forall_mem_cons.mp h
      have lines : (m.print before "").Yields OneLineEach := by
        refine (yields_printEntry first (by decide)).bind fun lines hlines => ?_
        exact Traced.ends_done (List.forall_mem_append.mpr ⟨hbefore, hlines⟩)
      rw [printModules]
      split
      · exact ih rest hbefore
      · exact lines.bind fun _ hlines => ih rest hlines

theorem yields_printFile {f : File} (h : (Decl.file f).Every Decl.OneLine) :
    f.print.Yields OneLineEach := by
  refine yields_printModules (fun m hm => h.child (List.mem_map_of_mem hm)) ?_
  refine List.forall_mem_cons.mpr ⟨oneLine_append.mpr ⟨by decide, ?_⟩, ?_⟩
  · exact h.self f.name List.mem_cons_self
  · refine List.forall_mem_map.mpr fun o ho => oneLine_append.mpr ⟨by decide, ?_⟩
    exact h.self o (List.mem_cons_of_mem _ ho)

theorem oneLine_read {settings : Settings} (hsettings : settings.OneLine) {path rootName : String}
    (hroot : Text.OneLine rootName) {tree : Syntax.Node}
    (copied : (Syntax.Cursor.root tree).AllOneLine) {f : File}
    (read : (File.read settings path rootName tree).outcome = .ok f) :
    (Decl.file f).Every Decl.OneLine := by
  obtain ⟨entries, declarations, done⟩ := Traced.ok_of_bind read
  obtain rfl := Except.ok.inj done
  have global : Text.OneLine "" := by decide
  have whole : (Decl.module ⟨"", entries⟩).Every Decl.OneLine :=
    Decl.every_iff.mpr ⟨List.forall_mem_singleton.mpr global,
      (yields_declarations path copied).ok entries declarations⟩
  apply Decl.Every.oneLine_merge
  exact Decl.every_iff.mpr ⟨List.forall_mem_cons.mpr ⟨hroot, hsettings.opens⟩,
    List.forall_mem_singleton.mpr whole⟩

/-- If what the readers copy from the tree is on one line, and so are the root
name and the settings, then every line that is generated is one line. -/
theorem generate_lines_unbroken {settings : Settings} {path rootName : String}
    {tree : Syntax.Node} {lines : List String}
    (generated : (generate settings path rootName tree).outcome = .ok lines)
    (hsettings : settings.OneLine) (hroot : Text.OneLine rootName)
    (copied : ∀ c ∈ (Syntax.Cursor.root tree).places, c.OneLine) :
    ∀ line ∈ lines, '\n' ∉ line.toList := by
  obtain ⟨f, read, rest⟩ := Traced.ok_of_bind generated
  obtain ⟨g, prepared, printed⟩ := Traced.ok_of_bind rest
  have file := oneLine_read hsettings hroot copied (Traced.ok_of_mapError read)
  have ready := file.oneLine_prepare hsettings (Traced.ok_of_mapError prepared)
  exact (yields_printFile ready).ok lines (Traced.ok_of_mapError printed)

def drawTree (pattern : String) : Syntax.Node :=
  spelled "program" none 1 "" [
    spelled "ambient_declaration" none 1 "" [
      spelled "function_signature" none 1 "" [
        spelled "identifier" (some "name") 1 "draw" [],
        spelled "formal_parameters" (some "parameters") 1 "" [
          spelled "required_parameter" none 1 "" [
            spelled "object_pattern" (some "pattern") 1 pattern [],
            spelled "type_annotation" (some "type") 1 "" [
              spelled "type_identifier" none 1 "Point" []]]],
        spelled "type_annotation" (some "return_type") 1 "" [
          spelled "predefined_type" none 1 "void" []]]]]

/-- What is generated for it, with the pattern between backticks. -/
def drawLines (pattern : String) : List String :=
  ["module rec Canvas", "open System", "open Fable.Core", "open Fable.Import.JS", "",
    "type [<AllowNullLiteral>] IExports =",
    "    abstract draw: \x60\x60" ++ pattern ++ "\x60\x60: Point -> unit"]

theorem drawTree_lines_unbroken :
    (generate {} "canvas.d.ts" "Canvas" (drawTree "\x7b x, y \x7d")).outcome =
        .ok (drawLines "\x7b x, y \x7d") ∧
      Settings.OneLine {} ∧ Text.OneLine "Canvas" ∧
      (∀ c ∈ (Syntax.Cursor.root (drawTree "\x7b x, y \x7d")).places, c.OneLine) ∧
      ∀ line ∈ drawLines "\x7b x, y \x7d", '\n' ∉ line.toList := by
  have value : (generate {} "canvas.d.ts" "Canvas"
      (drawTree "\x7b x, y \x7d")).outcome.toOption = some (drawLines "\x7b x, y \x7d") := by
    decide +kernel
  have copied : ∀ c ∈ (Syntax.Cursor.root (drawTree "\x7b x, y \x7d")).places, c.OneLine := by
    decide +kernel
  have settings : Settings.OneLine {} := ⟨by decide, by decide, by decide, by decide⟩
  have root : Text.OneLine "Canvas" := by decide
  have generated := ok_of_toOption value
  exact ⟨generated, settings, root, copied,
    generate_lines_unbroken generated settings root copied⟩

/-- The pattern of a parameter may go over two lines, and then so does the line of
the function. -/
theorem drawTree_breaks_line :
    Settings.OneLine {} ∧ Text.OneLine "Canvas" ∧
      (generate {} "canvas.d.ts" "Canvas" (drawTree "\x7b x,\n    y \x7d")).outcome =
        .ok (drawLines "\x7b x,\n    y \x7d") ∧
      ∃ line ∈ drawLines "\x7b x,\n    y \x7d", '\n' ∈ line.toList := by
  have value : (generate {} "canvas.d.ts" "Canvas"
      (drawTree "\x7b x,\n    y \x7d")).outcome.toOption =
        some (drawLines "\x7b x,\n    y \x7d") := by
    decide +kernel
  have settings : Settings.OneLine {} := ⟨by decide, by decide, by decide, by decide⟩
  exact ⟨settings, by decide, ok_of_toOption value, by decide +kernel⟩

end Bindgen
