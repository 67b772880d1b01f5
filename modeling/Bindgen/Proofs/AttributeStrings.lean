import Bindgen.Proofs.CaseNames
import Bindgen.Proofs.Reading.Types

/-! # Strings in attributes

A template, the name of an enum case and the path of an import are printed as quoted texts
in attributes. Whatever characters they have, a reader that starts behind the opening quote
gets them back and stops at the quote that closes the attribute.
-/

namespace Bindgen

namespace Text.Quoted

/-- The text with a backslash before every occurrence of a character. -/
def protect (c : Char) (s : List Char) : List Char :=
  s.flatMap fun d => if d = c then ['\\', d] else [d]

/-- Backslashes are protected first, so that those of the second step stay as they are. -/
theorem encodeChars_eq_protect (s : List Char) :
    encodeChars s = protect '\x22' (protect '\\' s) := by
  induction s with
  | nil => rfl
  | cons c s ih =>
      have split : protect '\x22' (protect '\\' (c :: s)) =
          protect '\x22' (protect '\\' [c]) ++ protect '\x22' (protect '\\' s) := by
        simp [protect]
      rw [split, ← ih, encodeChars]
      by_cases backslash : c = '\\'
      · simp [backslash, protect]
      · by_cases quote : c = '\x22' <;> simp [backslash, quote, protect]

end Text.Quoted

/-! ## Reading an attribute -/

/-- The quoted text behind the start of a line, which ends in the opening quote, and what
follows the closing quote. -/
def quotedBehind (start line : String) : Option (String × String) := do
  let quoted ← line.toList.dropPrefix? start.toList
  let (value, rest) ← Text.Quoted.decode quoted
  some (String.ofList value, String.ofList rest)

theorem quotedBehind_encode (start s rest : String) :
    quotedBehind start (start ++ Text.Quoted.encode s ++ ("\"" ++ rest)) = some (s, rest) := by
  have chars : (start ++ Text.Quoted.encode s ++ ("\"" ++ rest)).toList =
      start.toList ++ (Text.Quoted.encodeChars s.toList ++ '\x22' :: rest.toList) := by
    simp [String.toList_append, Text.Quoted.encode]
  have behind := List.dropPrefix?_append_of_beq
    (Text.Quoted.encodeChars s.toList ++ '\x22' :: rest.toList) (beq_self_eq_true start.toList)
  simp only [quotedBehind, chars, behind, Option.bind_eq_bind, Option.bind_some,
    Text.Quoted.decode_encodeChars, String.ofList_toList]

/-- A line that starts with another character has no such text. -/
theorem quotedBehind_of_ne {start line : String} {c d : Char} {cs ds : List Char}
    (hstart : start.toList = c :: cs) (hline : line.toList = d :: ds) (other : d ≠ c) :
    quotedBehind start line = none := by
  simp [quotedBehind, hstart, hline, List.dropPrefix?, other]

/-- An indentation plays no part. -/
theorem quotedBehind_indent (indent start line : String) :
    quotedBehind (indent ++ start) (indent ++ line) = quotedBehind start line := by
  have behind : ∀ cs : List Char, (cs ++ line.toList).dropPrefix? (cs ++ start.toList) =
      line.toList.dropPrefix? start.toList := by
    intro cs
    induction cs with
    | nil => rfl
    | cons c cs ih => simpa [List.dropPrefix?] using ih
  simp only [quotedBehind, String.toList_append, behind]

/-! ## The lines with attributes -/

/-- The template of a member stands at the start of its line. -/
theorem quotedBehind_emitAttribute (emit : Option String) (rest : String) :
    (quotedBehind "[<Emit \"" (emitAttribute emit ++ ("abstract " ++ rest))).map Prod.fst =
      emit := by
  cases emit with
  | none =>
      have line : (emitAttribute none ++ ("abstract " ++ rest)).toList =
          'a' :: ("bstract ".toList ++ rest.toList) := by
        simp [emitAttribute, String.toList_append]
      rw [quotedBehind_of_ne rfl line (by decide), Option.map_none]
  | some template =>
      have line : emitAttribute (some template) ++ ("abstract " ++ rest) =
          "[<Emit \"" ++ Text.Quoted.encode template ++ ("\"" ++ (">] abstract " ++ rest)) := by
        have closing : "\">] " = "\"" ++ ">] " := rfl
        have opening : ">] abstract " = ">] " ++ "abstract " := rfl
        rw [emitAttribute, closing, opening]
        simp only [String.append_assoc]
      rw [line, quotedBehind_encode, Option.map_some]

theorem Signature.print_yields (f : Signature) :
    f.print.Yields fun line => ∃ rest, line = emitAttribute f.emit ++ ("abstract " ++ rest) := by
  unfold Signature.print
  split
  case h_1 => exact Traced.ends_fail trivial
  case h_2 name _ =>
      refine Traced.yields_bind fun params => Traced.yields_bind fun result => ?_
      refine Traced.ends_done ⟨name ++ ": " ++ paramsText params ++ " -> " ++ result, ?_⟩
      simp only [String.append_assoc]

theorem Property.print_yields (p : Property) :
    p.print.Yields fun line => ∃ rest, line = emitAttribute p.emit ++ ("abstract " ++ rest) := by
  unfold Property.print
  refine Traced.yields_bind fun index => Traced.yields_bind fun type => ?_
  refine Traced.ends_done
    ⟨p.name ++ ": " ++ index ++ type ++ optionMark p.optional ++ " with get, set", ?_⟩
  simp only [String.append_assoc]

/-- The name of an enum case that is not its identifier stands behind the bar. -/
theorem quotedBehind_caseText (name : String) (rest : String) :
    (quotedBehind "| [<CompiledName \"" (caseText name ++ rest)).map Prod.fst =
      if Word.enumName name = name then none else some name := by
  by_cases same : Word.enumName name = name
  · obtain ⟨c, more, chars, initial, -⟩ := Word.isCaseName_enumName name
    have bare : caseText name ++ rest = "| " ++ (name ++ rest) := by
      rw [caseText, if_pos (beq_iff_eq.mpr same), String.append_assoc]
    have other : c ≠ '[' := by
      rintro rfl
      exact absurd initial.isHead (by decide)
    have line : (name ++ rest).toList = c :: (more ++ rest.toList) := by
      rw [String.toList_append, ← same, chars, List.cons_append]
    have missing : quotedBehind "[<CompiledName \"" (name ++ rest) = none :=
      quotedBehind_of_ne rfl line other
    have behindBar := quotedBehind_indent "| " "[<CompiledName \"" (name ++ rest)
    rw [bare, if_pos same]
    exact congrArg (Option.map Prod.fst) (behindBar.trans missing)
  · have line : caseText name ++ rest = "| [<CompiledName \"" ++ Text.Quoted.encode name ++
        ("\"" ++ (">] " ++ (Word.enumName name ++ rest))) := by
      have closing : "\">] " = "\"" ++ ">] " := rfl
      rw [caseText, if_neg (by simpa using same), closing]
      simp only [String.append_assoc]
    rw [line, quotedBehind_encode, if_neg same, Option.map_some]

/-- The names in the lines of the cases, which are those behind the header. -/
theorem quotedBehind_caseLines (indent : String) {e : Enum} (known : e.type ≠ .unknown) :
    ((e.print indent).drop 2).map (fun line =>
        (quotedBehind (indent ++ indentStep ++ "| [<CompiledName \"") line).map Prod.fst) =
      e.cases.map fun c => if Word.enumName c.name = c.name then none else some c.name := by
  have one : ∀ name rest : String,
      (quotedBehind (indent ++ indentStep ++ "| [<CompiledName \"")
          (indent ++ indentStep ++ (caseText name ++ rest))).map Prod.fst =
        if Word.enumName name = name then none else some name := by
    intro name rest
    rw [quotedBehind_indent, quotedBehind_caseText]
  unfold Enum.print
  cases type : e.type with
  | unknown => exact absurd type known
  | numeric =>
      simp only [List.drop_succ_cons, List.drop_zero, List.map_map, Function.comp_def, one]
  | text =>
      simp only [List.drop_succ_cons, List.drop_zero, List.map_map]
      refine List.map_congr_left fun c _ => ?_
      have line := one c.name ""
      rwa [String.append_empty] at line

theorem quotedBehind_importLine (indent : String) (i : Import) :
    ∃ line rest, i.print indent = ["", line] ∧
      quotedBehind (indent ++ "let [<Import(\"*\",\"") line =
        some (Text.join "." i.path, rest) := by
  refine ⟨_, ")>] " ++ i.binding ++ ": " ++ i.type ++ " = jsNative", rfl, ?_⟩
  have closing : "\")>] " = "\"" ++ ")>] " := rfl
  have read := quotedBehind_encode (indent ++ "let [<Import(\"*\",\"") (Text.join "." i.path)
    (")>] " ++ i.binding ++ ": " ++ i.type ++ " = jsNative")
  simpa only [closing, String.append_assoc] using read

/-- A text is written with backslashes before its backslashes and then before its quotes.
What is written is read back up to the closing quote, so that the template of a function
or a property, the name of an enum case and the path of an import are found in the lines
that are printed for them. -/
theorem attribute_strings_read_back :
    (∀ s rest : String,
      (Text.Quoted.encode s).toList =
        Text.Quoted.protect '\x22' (Text.Quoted.protect '\\' s.toList) ∧
      Text.Quoted.decode (Text.Quoted.encode s ++ "\"" ++ rest).toList =
        some (s.toList, rest.toList)) ∧
    (∀ (f : Signature) (line : String), f.print.outcome = .ok line ->
      (quotedBehind "[<Emit \"" line).map Prod.fst = f.emit) ∧
    (∀ (p : Property) (line : String), p.print.outcome = .ok line ->
      (quotedBehind "[<Emit \"" line).map Prod.fst = p.emit) ∧
    (∀ (indent : String) (e : Enum), e.type ≠ .unknown ->
      ((e.print indent).drop 2).map (fun line =>
          (quotedBehind (indent ++ indentStep ++ "| [<CompiledName \"") line).map Prod.fst) =
        e.cases.map fun c => if Word.enumName c.name = c.name then none else some c.name) ∧
    ∀ (indent : String) (i : Import), ∃ line rest, i.print indent = ["", line] ∧
      quotedBehind (indent ++ "let [<Import(\"*\",\"") line =
        some (Text.join "." i.path, rest) := by
  refine ⟨?_, ?_, ?_, fun indent e => quotedBehind_caseLines indent, quotedBehind_importLine⟩
  · intro s rest
    constructor
    · rw [Text.Quoted.encode, String.toList_ofList, Text.Quoted.encodeChars_eq_protect]
    · have chars : (Text.Quoted.encode s ++ "\"" ++ rest).toList =
          Text.Quoted.encodeChars s.toList ++ '\x22' :: rest.toList := by
        simp [String.toList_append, Text.Quoted.encode]
      rw [chars, Text.Quoted.decode_encodeChars]
  · intro f line printed
    obtain ⟨rest, rfl⟩ := f.print_yields.ok line printed
    exact quotedBehind_emitAttribute f.emit rest
  · intro p line printed
    obtain ⟨rest, rfl⟩ := p.print_yields.ok line printed
    exact quotedBehind_emitAttribute p.emit rest

/-- A function whose template ends in a backslash before a quote. -/
def quotingFunction : Signature :=
  ⟨some "$0[\"\\\"]\\", false, some "get", [], [], .obj⟩

def quotingProperty : Property :=
  ⟨some "\\\"", false, none, "at", false, .obj⟩

def quotingEnum : Enum :=
  ⟨"Mark", [⟨"\"\\", .text, none⟩, ⟨"Plain", .text, none⟩]⟩

theorem quoted_marks_read_back :
    (∃ line, quotingFunction.print.outcome = .ok line ∧
      (quotedBehind "[<Emit \"" line).map Prod.fst = some "$0[\"\\\"]\\") ∧
    (∃ line, quotingProperty.print.outcome = .ok line ∧
      (quotedBehind "[<Emit \"" line).map Prod.fst = some "\\\"") ∧
    quotingEnum.type ≠ .unknown ∧
    ((quotingEnum.print "").drop 2).map (fun line =>
        (quotedBehind ("" ++ indentStep ++ "| [<CompiledName \"") line).map Prod.fst) =
      [some "\"\\", none] := by
  have known : quotingEnum.type ≠ .unknown := by decide
  have cases := attribute_strings_read_back.2.2.2.1 "" quotingEnum known
  refine ⟨⟨_, rfl, attribute_strings_read_back.2.1 quotingFunction _ rfl⟩,
    ⟨_, rfl, attribute_strings_read_back.2.2.1 quotingProperty _ rfl⟩, known, cases.trans ?_⟩
  decide +kernel

end Bindgen
