import Bindgen.Proofs.Reading.Accessors
import Bindgen.Proofs.Reading.StringEnums

/-! # Strings between quotes

A string stands between two quotes of one kind. As the value of an enum case it
is read to what is between them. As a literal type, as the name of a member or a
case and as the name of a module it also loses all quotes of the other kind, so
that texts which differ only in those become one.
-/

namespace Bindgen

open Syntax

inductive Quote where
  | single
  | double
deriving DecidableEq

namespace Quote

def char : Quote -> Char
  | .single => '\x27'
  | .double => '\x22'

def other : Quote -> Quote
  | .single => .double
  | .double => .single

/-- The text without the quotes of the other kind. -/
def strip (q : Quote) (body : List Char) : String :=
  String.ofList (body.filter (· != q.other.char))

theorem strip_eq_iff {q : Quote} {body : List Char} :
    q.strip body = String.ofList body ↔ q.other.char ∉ body := by
  rw [strip, String.ofList_inj, List.filter_eq_self]
  constructor
  · intro h there
    exact bne_iff_ne.mp (h _ there) rfl
  · intro h c hc
    exact bne_iff_ne.mpr fun same => h (same ▸ hc)

/-- Without the other kind of quotes texts stay apart. -/
theorem strip_inj {q : Quote} {body more : List Char} (h : q.other.char ∉ body)
    (hmore : q.other.char ∉ more) : q.strip body = q.strip more ↔ body = more := by
  rw [strip_eq_iff.mpr h, strip_eq_iff.mpr hmore, String.ofList_inj]

theorem isQuote_iff (q : Quote) (c : Char) :
    (c != '\x22' && c != '\x27') = (c != q.char && c != q.other.char) := by
  cases q with
  | single => exact Bool.and_comm ..
  | double => rfl

end Quote

/-- The node is a string of the text between two quotes of one kind, with none
of that kind in it. -/
structure Syntax.Cursor.Delimits (s : Cursor) (q : Quote) (body : List Char) : Prop where
  type : s.type = "string"
  text : s.text.toList = q.char :: (body ++ [q.char])
  inside : q.char ∉ body

namespace Syntax.Cursor.Delimits

variable {s : Cursor} {q : Quote} {body : List Char}

theorem unquote_text (h : s.Delimits q body) : unquote s.text = q.strip body := by
  -- `body` has none of the quotes around it, so only the other kind is removed there
  have keep : ∀ c ∈ body, (c != '\x22' && c != '\x27') = (c != q.other.char) := by
    intro c hc
    have ne : c ≠ q.char := fun same => h.inside (same ▸ hc)
    rw [q.isQuote_iff, bne_iff_ne.mpr ne, Bool.true_and]
  have drop : (q.char != '\x22' && q.char != '\x27') = false := by
    cases q <;> rfl
  rw [unquote, h.text, List.filter_cons_of_neg (by rw [drop]; exact Bool.false_ne_true),
    List.filter_append, List.filter_cons_of_neg (by rw [drop]; exact Bool.false_ne_true),
    List.filter_nil, List.append_nil, List.filter_congr keep]
  rfl

theorem withoutEnds_text (h : s.Delimits q body) : withoutEnds s.text = String.ofList body := by
  rw [withoutEnds, h.text, List.drop_one, List.tail_cons, List.dropLast_concat]

theorem memberName_eq (h : s.Delimits q body) {c : Cursor} (name : c.field? "name" = some s) :
    memberName c = q.strip body := by
  have text : c.fieldText "name" = s.text := by
    rw [Cursor.fieldText, name]
    rfl
  rw [memberName, text, h.unquote_text]

theorem moduleNames_eq (h : s.Delimits q body) {c : Cursor}
    (plain : c.type ≠ "ambient_declaration") (name : c.field? "name" = some s) :
    moduleNames c = [q.strip body] := by
  have unquoted : moduleName (some s) = q.strip body := by
    rw [moduleName, if_pos (beq_iff_eq.mpr h.type), h.unquote_text]
  simp [moduleNames, plain, name, h.type, unquoted]

theorem literalText?_eq (h : s.Delimits q body) {t : Cursor} (string : t.literalString? = some s) :
    t.literalText? = some (q.strip body) := by
  rw [Cursor.literalText?, string, Option.map_some, h.unquote_text]

end Syntax.Cursor.Delimits

/-! ## The places of strings -/

def namedMembers : List Kind :=
  [.methodSignature, .methodDeclaration, .propertySignature, .propertyDeclaration, .getAccessor,
    .setAccessor]

section

variable (path : String) {c : Cursor}

theorem yields_method_name :
    (readMethod path c).Yields fun f => f.name = some (memberName c) :=
  Traced.yields_bind fun _ => Traced.yields_bind fun _ => Traced.ends_done rfl

theorem yields_property_name : (readProperty path c).Yields fun p => p.name = memberName c :=
  Traced.yields_bind fun _ => Traced.ends_done rfl

theorem yields_accessor_name : (readAccessor path c).Yields fun p => p.name = memberName c :=
  ⟨fun _ => name_of_readAccessor, fun _ _ => trivial⟩

theorem yields_member_name (named : c.kind ∈ namedMembers) :
    (readMember path c).Yields fun d => d.name? = some (memberName c) := by
  simp only [namedMembers, List.mem_cons, List.not_mem_nil, or_false] at named
  unfold readMember readPlainMember
  rcases named with kind | kind | kind | kind | kind | kind <;> rw [kind]
  · exact (yields_method_name path).bind fun _ same => Traced.ends_done same
  · exact (yields_method_name path).bind fun _ same => Traced.ends_done same
  · exact (yields_property_name path).bind fun _ same => Traced.ends_done (congrArg some same)
  · exact (yields_property_name path).bind fun _ same => Traced.ends_done (congrArg some same)
  · exact (yields_accessor_name path).bind fun _ same => Traced.ends_done (congrArg some same)
  · exact (yields_accessor_name path).bind fun _ same => Traced.ends_done (congrArg some same)

theorem yields_module_name {name : String} (names : moduleNames c = [name]) :
    (readModule path c).Yields fun d => ∃ entries, d = .module ⟨name, entries⟩ := by
  rw [readModule, names]
  exact Traced.yields_bind fun entries => Traced.ends_done ⟨_, rfl⟩

theorem readEnumCase_name (assignment : c.type = "enum_assignment") :
    (readEnumCase c).name = memberName c := by
  rw [readEnumCase, if_neg (by simp [assignment])]
  split
  · rfl
  · split
    · rfl
    · split <;> rfl

theorem readEnumCase_value (assignment : c.type = "enum_assignment") {s : Cursor}
    (value : c.field? "value" = some s) (string : s.type = "string") :
    readEnumCase c = ⟨memberName c, .text, some (withoutEnds s.text)⟩ := by
  simp [readEnumCase, assignment, value, string]

end

/-- The value of an enum case is what stands between the quotes. Everything else
that is read from a string, which is a literal type or the name of a member, a
case or a module, is without the quotes of the other kind as well: it is what
stands between the quotes exactly if there are none. -/
theorem string_read_without_quotes (path : String) {s : Cursor} {q : Quote} {body : List Char}
    (h : s.Delimits q body) :
    (∀ t, t.literalString? = some s ->
      (readType path t).outcome = .ok (.literal (q.strip body))) ∧
    (∀ c, c.field? "name" = some s ->
      (c.kind ∈ namedMembers ->
        (readMember path c).Yields fun d => d.name? = some (q.strip body)) ∧
      (c.type = "enum_assignment" -> (readEnumCase c).name = q.strip body) ∧
      (c.type ≠ "ambient_declaration" ->
        (readModule path c).Yields fun d => ∃ entries, d = .module ⟨q.strip body, entries⟩)) ∧
    (readEnumCase s).name = q.strip body ∧
    (∀ c, c.type = "enum_assignment" -> c.field? "value" = some s ->
      (readEnumCase c).type = .text ∧ (readEnumCase c).value = some (String.ofList body)) ∧
    (q.strip body = String.ofList body ↔ q.other.char ∉ body) ∧
    ∀ more, q.other.char ∉ body -> q.other.char ∉ more ->
      (q.strip body = q.strip more ↔ body = more) := by
  refine ⟨fun t string => readType_of_literalText? path (h.literalText?_eq string),
    fun c name => ⟨fun named => ?_, fun assignment => ?_, fun plain => ?_⟩, ?_,
    fun c assignment value => ?_, Quote.strip_eq_iff, fun more => Quote.strip_inj⟩
  · rw [← h.memberName_eq name]
    exact yields_member_name path named
  · rw [readEnumCase_name assignment, h.memberName_eq name]
  · exact yields_module_name path (h.moduleNames_eq plain name)
  · rw [readEnumCase, if_pos (by simp [h.type]), h.unquote_text]
  · rw [readEnumCase_value assignment value h.type, h.withoutEnds_text]
    exact ⟨rfl, rfl⟩

def stringIn (parent : String) (field : Option String) (text : String) : Cursor :=
  ⟨some parent, spelled "string" field 1 text []⟩

def quotedType (text : String) : Cursor :=
  .root (stringType text)

def quotedField (text : String) : Cursor :=
  .root (spelled "public_field_definition" none 1 "" [spelled "string" (some "name") 1 text []])

def quotedModule (text : String) : Cursor :=
  .root (spelled "module" none 1 "" [spelled "string" (some "name") 1 text []])

/-- A case under the name `Case` with the string as its value. -/
def quotedCase (text : String) : Cursor :=
  .root (spelled "enum_assignment" none 1 "" [
    spelled "property_identifier" (some "name") 1 "Case" [],
    spelled "string" (some "value") 1 text []])

theorem delimits_stringIn (parent : String) (field : Option String) {text : String} {q : Quote}
    {body : List Char} (ends : text.toList = q.char :: (body ++ [q.char]))
    (inside : q.char ∉ body) : (stringIn parent field text).Delimits q body :=
  ⟨rfl, ends, inside⟩

theorem left_read_without_quotes :
    (readType "side.d.ts" (quotedType "'left'")).outcome = .ok (.literal "left") ∧
    (∃ d, (readMember "side.d.ts" (quotedField "'left'")).outcome = .ok d ∧
      d.name? = some "left") ∧
    (∃ d, (readModule "side.d.ts" (quotedModule "'left'")).outcome = .ok d ∧
      ∃ entries, d = .module ⟨"left", entries⟩) ∧
    (readEnumCase (quotedCase "'left'")).value = some "left" := by
  have ends : "'left'".toList = Quote.single.char :: ("left".toList ++ [Quote.single.char]) := by
    decide
  have inside : Quote.single.char ∉ "left".toList := by decide
  obtain ⟨literal, -⟩ := string_read_without_quotes "side.d.ts"
    (delimits_stringIn "literal_type" none ends inside)
  obtain ⟨-, member, -⟩ := string_read_without_quotes "side.d.ts"
    (delimits_stringIn "public_field_definition" (some "name") ends inside)
  obtain ⟨-, module, -⟩ := string_read_without_quotes "side.d.ts"
    (delimits_stringIn "module" (some "name") ends inside)
  obtain ⟨-, -, -, value, -⟩ := string_read_without_quotes "side.d.ts"
    (delimits_stringIn "enum_assignment" (some "value") ends inside)
  have field : (readMember "side.d.ts" (quotedField "'left'")).outcome =
      .ok (.property ⟨none, false, none, "left", false, .absent⟩) :=
    ok_of_toOption (by decide +kernel)
  have empty : (readModule "side.d.ts" (quotedModule "'left'")).outcome =
      .ok (.module ⟨"left", []⟩) :=
    ok_of_toOption (by decide +kernel)
  refine ⟨literal _ (by with_unfolding_all rfl), ⟨_, field, ?_⟩, ⟨_, empty, ?_⟩, ?_⟩
  · exact ((member (quotedField "'left'") rfl).1 (by decide)).ok _ field
  · exact ((module (quotedModule "'left'") rfl).2.2 (by decide)).ok _ empty
  · exact (value (quotedCase "'left'") rfl rfl).2

/-- Texts that differ only in a quote of the other kind are read as one, except
for the value of a case. -/
theorem apostrophe_lost :
    (stringIn "literal_type" none "\"it's\"").Delimits .double "it's".toList ∧
    (∀ text ∈ ["\"it's\"", "\"its\""],
      (readType "its.d.ts" (quotedType text)).outcome = .ok (.literal "its") ∧
      (readMember "its.d.ts" (quotedField text)).outcome =
        .ok (.property ⟨none, false, none, "its", false, .absent⟩) ∧
      (readModule "its.d.ts" (quotedModule text)).outcome = .ok (.module ⟨"its", []⟩)) ∧
    (readEnumCase (quotedCase "\"it's\"")).value = some "it's" := by
  refine ⟨delimits_stringIn _ _ (by decide) (by decide), ?_, by decide +kernel⟩
  intro text given
  simp only [List.mem_cons, List.not_mem_nil, or_false] at given
  rcases given with rfl | rfl <;>
    exact ⟨ok_of_toOption (by decide +kernel), ok_of_toOption (by decide +kernel),
      ok_of_toOption (by decide +kernel)⟩

end Bindgen
