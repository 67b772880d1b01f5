import Bindgen.Print.Module
import Bindgen.Proofs.Rewriting

/-! # Indentation

A block that is printed further to the right has the same lines, each of them
moved, and blank lines stay blank. So the lines of a module are printed once, at
the left margin, and can then be put at any depth and behind any other lines.
-/

namespace Bindgen

/-- A line moved to the right. A blank line has nothing to move. -/
def indented (indent line : String) : String :=
  if line.isEmpty then "" else indent ++ line

@[simp] theorem indented_empty (indent : String) : indented indent "" = "" := rfl

theorem indented_of_ne {line : String} (h : line ≠ "") (indent : String) :
    indented indent line = indent ++ line := by
  rw [indented, if_neg (by simpa using h)]

/-- Moving twice is moving by both steps. -/
theorem indented_indented (outer inner line : String) :
    indented outer (indented inner line) = indented (outer ++ inner) line := by
  by_cases blank : line = ""
  · simp [blank]
  · have moved : inner ++ line ≠ "" := by simp [blank]
    rw [indented_of_ne blank, indented_of_ne blank, indented_of_ne moved, String.append_assoc]

/-- A block moves as a whole: a blank line, a header and the lines one step under
it, of which none is empty. -/
theorem indented_block (indent header : String) (h : header ≠ "") (body : List String) :
    "" :: (indent ++ header) :: body.map (fun line => indent ++ (indentStep ++ line)) =
      ("" :: header :: body.map (indentStep ++ ·)).map (indented indent) := by
  have moved : ∀ line, indented indent (indentStep ++ line) = indent ++ (indentStep ++ line) :=
    fun line => indented_of_ne (by simp [indentStep]) indent
  simp only [List.map_cons, List.map_map, Function.comp_def, indented_empty, indented_of_ne h,
    moved]

/-! ## Entries -/

theorem Interface.print_indented (indent : String) (i : Interface) :
    i.print indent = List.map (indented indent) <$> i.print "" := by
  have lines := fun typeParams => indented_block indent
    ("type [<AllowNullLiteral>] " ++ (i.name ++ (typeParams ++ " ="))) (by simp)
  simp only [Interface.print, Traced.map_eq_bind, bind_assoc, Traced.done_bind,
    String.append_assoc, String.empty_append, lines]

theorem Enum.print_indented (indent : String) (e : Enum) :
    e.print indent = (e.print "").map (indented indent) := by
  have lines := fun word => indented_block indent (word ++ (e.name ++ " =")) (by simp)
  unfold Enum.print
  simp only [String.append_assoc, String.empty_append]
  split
  · exact lines "type " ["obj"]
  · simpa only [List.map_map, Function.comp_def] using lines "type [<RequireQualifiedAccess>] "
      (e.cases.map fun c => caseText c.name ++ caseValueText c.value)
  · simpa only [List.map_map, Function.comp_def] using lines
      "type [<StringEnum>] [<RequireQualifiedAccess>] " (e.cases.map fun c => caseText c.name)

theorem Alias.print_indented (indent : String) (a : Alias) :
    a.print indent = List.map (indented indent) <$> a.print "" := by
  have lines := fun typeParams type => indented_block indent
    ("type " ++ (a.name ++ (typeParams ++ " ="))) (by simp) [type]
  simp only [List.map_cons, List.map_nil] at lines
  simp only [Alias.print, Traced.map_eq_bind, bind_assoc, Traced.done_bind,
    String.append_assoc, String.empty_append, lines, List.map_cons, List.map_nil]

theorem Import.print_indented (indent : String) (i : Import) :
    i.print indent = (i.print "").map (indented indent) := by
  simp only [Import.print, String.append_assoc, String.empty_append]
  exact indented_block indent _ (by simp) []

/-- What is inside a module stands one step deeper, if the module has a name. -/
theorem indented_moduleLines (indent name : String) (inside : List String) :
    moduleLines indent name (inside.map (indented (moduleIndent indent name))) =
      (moduleLines "" name (inside.map (indented (moduleIndent "" name)))).map
        (indented indent) := by
  unfold moduleLines moduleIndent
  split
  · simp [indented_indented]
  · have header : "module " ++ (name ++ " =") ≠ "" := by simp
    simp only [String.append_assoc, String.empty_append, List.map_cons, List.map_map,
      Function.comp_def, indented_empty, indented_of_ne header, indented_indented]

mutual

/-- The lines of an entry at any depth are those at the margin, moved. -/
theorem Decl.printEntry_indented (indent : String) (d : Decl) :
    d.printEntry indent = List.map (indented indent) <$> d.printEntry "" := by
  cases d with
  | interface i => exact i.print_indented indent
  | enum e =>
      rw [Decl.printEntry, Decl.printEntry, Traced.map_eq_bind, Traced.done_bind,
        ← e.print_indented]
  | typeAlias a => exact a.print_indented indent
  | imported i =>
      rw [Decl.printEntry, Decl.printEntry, Traced.map_eq_bind, Traced.done_bind,
        ← i.print_indented]
  | module m =>
      obtain ⟨name, entries⟩ := m
      have inside := fun indent => Decl.printEntries_indented indent entries
      rw [Decl.printEntry, Decl.printEntry, inside (moduleIndent indent name),
        inside (moduleIndent "" name)]
      simp only [Traced.map_eq_bind, bind_assoc, Traced.done_bind,
        indented_moduleLines indent name]
  | _ => rfl

theorem Decl.printEntries_indented (indent : String) (ds : List Decl) :
    Decl.printEntries indent ds = List.map (indented indent) <$> Decl.printEntries "" ds := by
  cases ds with
  | nil => rfl
  | cons d ds =>
      rw [Decl.printEntries, Decl.printEntries, Decl.printEntry_indented indent d,
        Decl.printEntries_indented indent ds]
      simp only [Traced.map_eq_bind, bind_assoc, Traced.done_bind, List.map_append]

end

/-! ## Modules -/

/-- Printing a module puts its lines, moved, behind those that are there. The
warnings do not depend on the place either. -/
theorem Module.print_eq_map (before : List String) (indent : String) (m : Module) :
    m.print before indent =
      (fun lines => before ++ lines.map (indented indent)) <$> m.print [] "" := by
  rw [Module.print, Module.print, Decl.printEntry_indented]
  simp only [Traced.map_eq_bind, bind_assoc, Traced.done_bind, List.nil_append]

/-- A module fails to print in the same way everywhere, or its lines at the margin
are its lines everywhere: moved by the indentation, blank ones apart, and behind the
lines that are there. -/
theorem Module.print_compositional (m : Module) :
    (∃ cause, ∀ before indent, (m.print before indent).outcome = .error cause) ∨
      ∃ lines, (m.print [] "").outcome = .ok lines ∧
        ∀ before indent, (m.print before indent).outcome =
          .ok (before ++ lines.map fun line => if line = "" then "" else indent ++ line) := by
  have moved : ∀ indent, (fun line => if line = "" then "" else indent ++ line) =
      indented indent := by
    intro indent
    funext line
    simp [indented]
  cases margin : (m.print [] "").outcome with
  | error cause =>
      refine .inl ⟨cause, fun before indent => ?_⟩
      rw [Module.print_eq_map, Traced.map_eq_bind, Traced.outcome_bind_error margin]
  | ok lines =>
      refine .inr ⟨lines, rfl, fun before indent => ?_⟩
      rw [Module.print_eq_map, Traced.map_eq_bind, Traced.outcome_bind margin, moved]
      rfl

end Bindgen
