import Bindgen.Print.Module
import Bindgen.Proofs.Words
import Mathlib.Data.List.Basic

/-! # Identifiers of enum cases

The identifier of an enum case is made in one scan of its name: word characters are
kept, each that starts a run of them in upper case, and everything else is dropped. The
outcome is an identifier of one form, which is its own identifier and never needs
backticks. It is no longer the name, and two names may have one identifier: `Alike`
says which ones.

A printed case is read back by `readCase`, so that what is said of identifiers is said
of the text behind the bar.
-/

namespace Bindgen.Word

/-! ## One scan of a name -/

/-- The word characters of a text. One that starts a run of them is in upper case;
`starts` says whether a run starts with the next one. -/
def humps (starts : Bool) : List Char -> List Char
  | [] => []
  | c :: cs =>
    if isWordChar c then (if starts then c.toUpper else c) :: humps false cs
    else humps true cs

/-- Empty runs add nothing, so it does not matter that they are left out. -/
theorem flatMap_capitalize_filter (runs : List (List Char)) :
    (runs.filter (!·.isEmpty)).flatMap capitalize = runs.flatMap capitalize := by
  induction runs with
  | nil => rfl
  | cons run runs ih =>
      cases run with
      | nil => simpa [capitalize] using ih
      | cons c cs => simpa using ih

/-- The first run of a text is capitalised if it starts with the text. -/
theorem humps_of_fields {cs run : List Char} {runs : List (List Char)}
    (h : Text.fields (!isWordChar ·) cs = run :: runs) :
    humps true cs = capitalize run ++ runs.flatMap capitalize ∧
      humps false cs = run ++ runs.flatMap capitalize := by
  induction cs generalizing run runs with
  | nil =>
      cases h
      exact ⟨rfl, rfl⟩
  | cons c cs ih =>
      by_cases word : isWordChar c = true
      · simp only [Text.fields, word, Bool.not_true, Bool.false_eq_true, if_false] at h
        cases inner : Text.fields (!isWordChar ·) cs with
        | nil => exact absurd inner (Text.fields_ne_nil _ cs)
        | cons first rest =>
            rw [inner] at h
            cases h
            have inside := (ih inner).2
            simp [humps, word, inside, capitalize]
      · simp only [Text.fields, word, Bool.not_false, if_true] at h
        obtain ⟨rfl, rfl⟩ := List.cons.inj h
        cases inner : Text.fields (!isWordChar ·) cs with
        | nil => exact absurd inner (Text.fields_ne_nil _ cs)
        | cons first rest =>
            have outside := (ih inner).1
            simp [humps, word, outside, capitalize]

theorem pascalCase_eq_humps (cs : List Char) : pascalCase cs = humps true cs := by
  rw [pascalCase, flatMap_capitalize_filter]
  cases runs : Text.fields (!isWordChar ·) cs with
  | nil => exact absurd runs (Text.fields_ne_nil _ cs)
  | cons run rest => rw [(humps_of_fields runs).1, List.flatMap_cons]

/-- The identifier of a case with these humps: a word for none at all, and an
underscore before a digit. -/
def completed : List Char -> List Char
  | [] => ['E', 'm', 'p', 't', 'y']
  | c :: cs => if c.isDigit then '_' :: c :: cs else c :: cs

/-! ## The form of identifiers -/

/-- A capital letter or an underscore. -/
def IsInitial (c : Char) : Prop :=
  c.isUpper = true ∨ c = '_'

def IsCaseName (cs : List Char) : Prop :=
  ∃ c rest, cs = c :: rest ∧ IsInitial c ∧ ∀ d ∈ rest, isWordChar d = true

theorem isWordChar_iff {c : Char} :
    isWordChar c = true ↔ c.isAlpha = true ∨ c.isDigit = true ∨ c = '_' := by
  simp only [isWordChar, isHead, Bool.or_eq_true, beq_iff_eq]
  rw [or_assoc, or_comm (a := c = '_')]

theorem isAlpha_iff {c : Char} : c.isAlpha = true ↔ c.isUpper = true ∨ c.isLower = true := by
  change (c.isUpper || c.isLower) = true ↔ _
  rw [Bool.or_eq_true]

/-- Digits are below the initials, and backticks and small letters are above them. -/
theorem IsInitial.bounds {c : Char} (h : IsInitial c) : 65 ≤ c.toNat ∧ c.toNat ≤ 95 := by
  rcases h with upper | underscore
  · have between := of_decide_eq_true upper
    rw [ge_iff_le, UInt32.le_iff_toNat_le, UInt32.le_iff_toNat_le] at between
    change 65 ≤ c.toNat ∧ c.toNat ≤ 90 at between
    omega
  · subst underscore
    decide

theorem IsInitial.not_isDigit {c : Char} (h : IsInitial c) : ¬ c.isDigit = true := by
  intro digit
  have bounds := h.bounds
  have small := Char.isDigit_iff_toNat.mp digit
  have nine : '9'.toNat = 57 := rfl
  omega

theorem IsInitial.not_isLower {c : Char} (h : IsInitial c) : ¬ c.isLower = true := by
  intro lower
  have bounds := h.bounds
  have large : 97 ≤ c.toNat := UInt32.le_iff_toNat_le.mp (isLower_iff.mp lower).1
  omega

theorem IsInitial.isHead {c : Char} (h : IsInitial c) : isHead c = true := by
  rcases h with upper | underscore
  · simp [Word.isHead, isAlpha_iff, upper]
  · simp [Word.isHead, underscore]

theorem toUpper_cases {c : Char} (h : isWordChar c = true) :
    IsInitial c.toUpper ∨ c.toUpper.isDigit = true := by
  by_cases lower : c.isLower = true
  · exact .inl (.inl (isUpper_toUpper lower))
  · rw [toUpper_of_not_isLower lower]
    rcases isWordChar_iff.mp h with alpha | digit | underscore
    · exact .inl (.inl ((isAlpha_iff.mp alpha).resolve_right lower))
    · exact .inr digit
    · exact .inl (.inr underscore)

theorem isWordChar_of_mem_humps {starts : Bool} {cs : List Char} {d : Char}
    (h : d ∈ humps starts cs) : isWordChar d = true := by
  induction cs generalizing starts with
  | nil => cases h
  | cons c cs ih =>
      unfold humps at h
      by_cases word : isWordChar c = true
      · rw [if_pos word] at h
        rcases List.mem_cons.mp h with same | inside
        · subst same
          cases starts with
          | false => exact word
          | true =>
              rcases toUpper_cases word with initial | digit
              · simp [isWordChar, initial.isHead]
              · simp [isWordChar, digit]
        · exact ih inside
      · rw [if_neg word] at h
        exact ih h

/-- What starts a text starts a run, and is in upper case. -/
theorem first_of_humps {cs rest : List Char} {c : Char} (h : humps true cs = c :: rest) :
    IsInitial c ∨ c.isDigit = true := by
  induction cs with
  | nil => cases h
  | cons d ds ih =>
      unfold humps at h
      by_cases word : isWordChar d = true
      · rw [if_pos word] at h
        cases h
        exact toUpper_cases word
      · rw [if_neg word] at h
        exact ih h

theorem isCaseName_completed (cs : List Char) : IsCaseName (completed (humps true cs)) := by
  have word : ∀ d ∈ humps true cs, isWordChar d = true := fun d => isWordChar_of_mem_humps
  cases scan : humps true cs with
  | nil =>
      have letters : ['m', 'p', 't', 'y'].all isWordChar = true := rfl
      exact ⟨'E', _, rfl, .inl (by decide), List.all_eq_true.mp letters⟩
  | cons c rest =>
      rw [scan] at word
      rw [completed]
      by_cases digit : c.isDigit = true
      · rw [if_pos digit]
        exact ⟨'_', c :: rest, rfl, .inr rfl, word⟩
      · rw [if_neg digit]
        have initial := (first_of_humps scan).resolve_right digit
        exact ⟨c, rest, rfl, initial, fun d hd => word d (List.mem_cons_of_mem c hd)⟩

/-! ## Identifiers need no escaping -/

theorem IsCaseName.isName {cs : List Char} (h : IsCaseName cs) : IsName cs := by
  obtain ⟨c, rest, same, initial, word⟩ := h
  exact ⟨c, rest, same, initial.isHead, fun d hd => .inl (word d hd)⟩

theorem IsCaseName.not_ticked {cs : List Char} (h : IsCaseName cs) :
    ¬ Ticked (String.ofList cs) := by
  obtain ⟨c, rest, rfl, initial, -⟩ := h
  intro ticked
  have bounds := initial.bounds
  obtain ⟨more, same⟩ := ticked.1
  rw [String.toList_ofList] at same
  have first : '\x60' = c := (List.cons.inj same).1
  have tick : '\x60'.toNat = 96 := rfl
  rw [← first] at bounds
  omega

/-- All reserved words start with a small letter. -/
theorem IsCaseName.not_isReserved {cs : List Char} (h : IsCaseName cs) :
    isReserved (String.ofList cs) = false := by
  have small : ∀ word ∈ keywords ++ futureWords, ∃ c rest,
      word.toList = c :: rest ∧ c.isLower = true := by
    have each : (keywords ++ futureWords).all (fun word => word.toList.head?.any Char.isLower) =
        true := by decide +kernel
    intro word hword
    have lower := List.all_eq_true.mp each word hword
    cases chars : word.toList with
    | nil => simp [chars] at lower
    | cons c rest => exact ⟨c, rest, rfl, by simpa [chars] using lower⟩
  obtain ⟨c, rest, rfl, initial, -⟩ := h
  refine Bool.eq_false_iff.mpr fun reserved => ?_
  rw [isReserved, Bool.or_eq_true, List.contains_iff_mem, List.contains_iff_mem,
    ← List.mem_append] at reserved
  obtain ⟨d, others, chars, lower⟩ := small _ reserved
  rw [String.toList_ofList] at chars
  exact initial.not_isLower ((List.cons.inj chars).1 ▸ lower)

theorem IsCaseName.escape {cs : List Char} (h : IsCaseName cs) :
    escape (String.ofList cs) = String.ofList cs := by
  have undotted : ∀ c ∈ cs, (c == '.') = false := by
    intro c hc
    refine Bool.eq_false_iff.mpr fun dot => ?_
    rw [eq_of_beq dot] at hc
    exact absurd (h.isName.isWordChar_of_mem hc) (by decide)
  have path : isIdentifierPath (String.ofList cs) = true := by
    rw [isIdentifierPath, String.toList_ofList, fields_of_forall undotted, List.all_cons,
      isIdentifier_iff.mpr ⟨cs, .inl rfl, h.isName⟩]
    rfl
  unfold Word.escape
  split
  · rfl
  · exact if_neg (by simp [h.not_isReserved, path])

theorem enumName_eq (name : String) :
    enumName name = String.ofList (completed (humps true name.toList)) := by
  have form := isCaseName_completed name.toList
  unfold enumName
  rw [pascalCase_eq_humps]
  cases scan : humps true name.toList with
  | nil => rfl
  | cons c cs =>
      rw [scan] at form
      exact form.escape

theorem isCaseName_enumName (name : String) : IsCaseName (enumName name).toList := by
  rw [enumName_eq, String.toList_ofList]
  exact isCaseName_completed name.toList

theorem humps_of_forall {cs : List Char} (h : ∀ c ∈ cs, isWordChar c = true) :
    humps false cs = cs := by
  induction cs with
  | nil => rfl
  | cons c cs ih =>
      obtain ⟨first, rest⟩ := List.forall_mem_cons.mp h
      simp [humps, first, ih rest]

/-- An identifier of this form is its own identifier. -/
theorem enumName_of_isCaseName {name : String} (h : IsCaseName name.toList) :
    enumName name = name := by
  obtain ⟨c, rest, chars, initial, word⟩ := h
  have first : isWordChar c = true := by simp [isWordChar, initial.isHead]
  have scan : humps true name.toList = c :: rest := by
    simp [chars, humps, first, toUpper_of_not_isLower initial.not_isLower, humps_of_forall word]
  rw [enumName_eq, scan, completed, if_neg initial.not_isDigit, ← chars, String.ofList_toList]

theorem enumName_enumName (name : String) : enumName (enumName name) = enumName name :=
  enumName_of_isCaseName (isCaseName_enumName name)

theorem enumName_eq_self_iff {name : String} :
    enumName name = name ↔ ∃ other, enumName other = name := by
  constructor
  · intro same
    exact ⟨name, same⟩
  · intro h
    obtain ⟨other, image⟩ := h
    rw [← image]
    exact enumName_enumName other

/-! ## Names with one identifier -/

/-- What the scan leaves needs something more to be an identifier. -/
inductive Completes : List Char -> List Char -> Prop where
  | word : Completes [] ['E', 'm', 'p', 't', 'y']
  | underscore {c : Char} (cs : List Char) (digit : c.isDigit = true) :
      Completes (c :: cs) ('_' :: c :: cs)

/-- The names have the same humps, or those of one of them complete those of the
other. -/
def Alike (name other : String) : Prop :=
  humps true name.toList = humps true other.toList ∨
    Completes (humps true name.toList) (humps true other.toList) ∨
    Completes (humps true other.toList) (humps true name.toList)

theorem Completes.completed_eq {cs ds : List Char} (h : Completes cs ds) :
    completed cs = completed ds := by
  cases h with
  | word => rfl
  | underscore cs digit =>
      rw [completed, if_pos digit]
      rfl

theorem completed_cases (cs : List Char) : completed cs = cs ∨ Completes cs (completed cs) := by
  cases cs with
  | nil => exact .inr .word
  | cons c cs =>
      rw [completed]
      by_cases digit : c.isDigit = true
      · rw [if_pos digit]
        exact .inr (.underscore cs digit)
      · rw [if_neg digit]
        exact .inl rfl

theorem Completes.left_unique {cs ds es : List Char} (first : Completes cs es)
    (second : Completes ds es) : cs = ds := by
  cases first with
  | word =>
      cases second with
      | word => rfl
  | underscore cs digit =>
      cases second with
      | underscore ds _ => rfl

theorem completed_eq_iff {cs ds : List Char} :
    completed cs = completed ds ↔ cs = ds ∨ Completes cs ds ∨ Completes ds cs := by
  constructor
  · intro same
    rcases completed_cases cs with whole | short
    · rcases completed_cases ds with whole' | short'
      · exact .inl (by rw [← whole, same, whole'])
      · rw [← same, whole] at short'
        exact .inr (.inr short')
    · rcases completed_cases ds with whole' | short'
      · rw [same, whole'] at short
        exact .inr (.inl short)
      · rw [← same] at short'
        exact .inl (short.left_unique short')
  · intro h
    rcases h with same | forth | back
    · rw [same]
    · exact forth.completed_eq
    · exact back.completed_eq.symm

/-- Exactly the names that are alike have one identifier. -/
theorem enumName_eq_enumName_iff {name other : String} :
    enumName name = enumName other ↔ Alike name other := by
  rw [enumName_eq, enumName_eq, String.ofList_inj, completed_eq_iff, Alike]

instance (name other : String) : Decidable (Alike name other) :=
  decidable_of_iff _ enumName_eq_enumName_iff

end Bindgen.Word

namespace Bindgen

/-! ## Printed cases -/

/-- What the text of a case shows: the name in its attribute, if it has one, and its
identifier. -/
structure PrintedCase where
  compiledName : Option String
  identifier : String
deriving DecidableEq

/-- What a case shows: its identifier, and its name beside it unless that is the
identifier. -/
def PrintedCase.ofName (name : String) : PrintedCase where
  compiledName := if Word.enumName name = name then none else some name
  identifier := Word.enumName name

theorem PrintedCase.compiledName_ofName {name : String} :
    (PrintedCase.ofName name).compiledName = none ↔ ∃ other, Word.enumName other = name := by
  rw [← Word.enumName_eq_self_iff, PrintedCase.ofName]
  by_cases same : Word.enumName name = name
  · exact iff_of_true (if_pos same) same
  · simp [same]

/-- The name in the attribute that a text starts with, and what is behind it. -/
def readAttribute (text : List Char) : Option (List Char × List Char) := do
  let quoted ← text.dropPrefix? "[<CompiledName \"".toList
  let (name, rest) ← Text.Quoted.decode quoted
  let behind ← rest.dropPrefix? ">] ".toList
  some (name, behind)

def leadingWord (text : List Char) : String :=
  String.ofList (text.takeWhile Word.isWordChar)

/-- Read the text of a case: a bar, an attribute that may be missing, and the
identifier. -/
def readCase (text : List Char) : Option PrintedCase := do
  let behindBar ← text.dropPrefix? "| ".toList
  match readAttribute behindBar with
  | none => some ⟨none, leadingWord behindBar⟩
  | some (name, behind) => some ⟨some (String.ofList name), leadingWord behind⟩

theorem readAttribute_encode (name rest : List Char) :
    readAttribute ("[<CompiledName \"".toList ++
      (Text.Quoted.encodeChars name ++ '\x22' :: (">] ".toList ++ rest))) = some (name, rest) := by
  have opened := List.dropPrefix?_append_of_beq
    (Text.Quoted.encodeChars name ++ '\x22' :: (">] ".toList ++ rest))
    (beq_self_eq_true "[<CompiledName \"".toList)
  have closed := List.dropPrefix?_append_of_beq rest (beq_self_eq_true ">] ".toList)
  simp only [readAttribute, opened, Option.bind_eq_bind, Option.bind_some,
    Text.Quoted.decode_encodeChars, closed]

theorem readAttribute_of_isCaseName {cs : List Char} (h : Word.IsCaseName cs)
    (rest : List Char) : readAttribute (cs ++ rest) = none := by
  obtain ⟨c, more, rfl, initial, -⟩ := h
  have other : (c == '[') = false := by
    refine Bool.eq_false_iff.mpr fun bracket => ?_
    rw [eq_of_beq bracket] at initial
    exact absurd initial.isHead (by decide)
  have opening : "[<CompiledName \"".toList = '[' :: "<CompiledName \"".toList := rfl
  simp [readAttribute, opening, List.dropPrefix?, other]

/-- The value of a case does not run on from its identifier. -/
theorem leadingWord_enumName (name : String) (value : Option String) :
    leadingWord ((Word.enumName name).toList ++ (caseValueText value).toList) =
      Word.enumName name := by
  have word : ∀ c ∈ (Word.enumName name).toList, Word.isWordChar c = true := by
    intro c hc
    obtain ⟨first, rest, chars, initial, all⟩ := Word.isCaseName_enumName name
    rw [chars] at hc
    rcases List.mem_cons.mp hc with same | hc
    · simp [Word.isWordChar, same, initial.isHead]
    · exact all c hc
  have stop : (caseValueText value).toList.takeWhile Word.isWordChar = [] := by
    cases value with
    | none => rfl
    | some value =>
        rw [caseValueText, String.toList_append]
        rfl
  rw [leadingWord, List.takeWhile_append_of_pos word, stop, List.append_nil, String.ofList_toList]

/-- A printed case is read back. -/
theorem readCase_caseText (name : String) (value : Option String) :
    readCase (caseText name ++ caseValueText value).toList = some (.ofName name) := by
  have word := leadingWord_enumName name value
  have bar : ∀ text : List Char, ('|' :: ' ' :: text).dropPrefix? "| ".toList = some text :=
    fun text => List.dropPrefix?_append_of_beq text (beq_self_eq_true "| ".toList)
  unfold caseText PrintedCase.ofName
  by_cases same : Word.enumName name = name
  · have bare := readAttribute_of_isCaseName (Word.isCaseName_enumName name)
      (caseValueText value).toList
    rw [same] at bare word
    have chars : ("| " ++ name ++ caseValueText value).toList =
        '|' :: ' ' :: (name.toList ++ (caseValueText value).toList) := by
      simp [String.toList_append]
    rw [if_pos (beq_iff_eq.mpr same), if_pos same, chars, readCase, bar]
    simp only [Option.bind_eq_bind, Option.bind_some, bare, word, same]
  · have kept := readAttribute_encode name.toList
      ((Word.enumName name).toList ++ (caseValueText value).toList)
    have chars : ("| [<CompiledName \"" ++ Text.Quoted.encode name ++ "\">] " ++
        Word.enumName name ++ caseValueText value).toList =
          '|' :: ' ' :: ("[<CompiledName \"".toList ++
            (Text.Quoted.encodeChars name.toList ++ '\x22' :: (">] ".toList ++
              ((Word.enumName name).toList ++ (caseValueText value).toList)))) := by
      simp [String.toList_append, Text.Quoted.encode]
    rw [if_neg (by simp [same]), if_neg same, chars, readCase, bar]
    simp only [Option.bind_eq_bind, Option.bind_some, kept, word, String.ofList_toList]

/-- The identifier of a case has one form: a capital letter or an underscore, then
letters, digits and underscores. It is no reserved word, it does not stand between
backticks, and it is its own identifier. A case is printed without an attribute exactly
if its name is such an identifier already. -/
theorem enumName_canonical :
    (∀ name, (∃ c rest, (Word.enumName name).toList = c :: rest ∧
        (c.isUpper = true ∨ c = '_') ∧
        ∀ d ∈ rest, d.isAlpha = true ∨ d.isDigit = true ∨ d = '_') ∧
      Word.isReserved (Word.enumName name) = false ∧ ¬ Word.Ticked (Word.enumName name) ∧
      Word.enumName (Word.enumName name) = Word.enumName name) ∧
    ∀ name value, ∃ printed, readCase (caseText name ++ caseValueText value).toList = some printed ∧
      (printed.compiledName = none ↔ ∃ other, Word.enumName other = name) := by
  constructor
  · intro name
    have form := Word.isCaseName_enumName name
    have reserved := form.not_isReserved
    have ticked := form.not_ticked
    rw [String.ofList_toList] at reserved ticked
    obtain ⟨c, rest, chars, initial, word⟩ := form
    exact ⟨⟨c, rest, chars, initial, fun d hd => Word.isWordChar_iff.mp (word d hd)⟩, reserved,
      ticked, Word.enumName_enumName name⟩
  · intro name value
    exact ⟨_, readCase_caseText name value, PrintedCase.compiledName_ofName⟩

/-! ## Printed enums -/

/-- The cases in the lines of an enum that is printed at an indentation, one on each line
behind the empty line and the header. -/
def readCases (indent : String) (lines : List String) : List (Option PrintedCase) :=
  (lines.drop 2).map fun line => readCase (line.toList.drop (indent ++ indentStep).length)

theorem readCase_line (indent name : String) (value : Option String) :
    readCase ((indent ++ indentStep ++ (caseText name ++ caseValueText value)).toList.drop
      (indent ++ indentStep).length) = some (.ofName name) := by
  rw [String.toList_append, ← String.length_toList, List.drop_left, readCase_caseText]

theorem readCases_print (indent : String) {e : Enum} (known : e.type ≠ .unknown) :
    readCases indent (e.print indent) = e.cases.map fun c => some (.ofName c.name) := by
  unfold Enum.print
  cases type : e.type with
  | unknown => exact absurd type known
  | numeric =>
      simp only [readCases, List.drop_succ_cons, List.drop_zero, List.map_map]
      exact List.map_congr_left fun c _ => readCase_line indent c.name c.value
  | text =>
      simp only [readCases, List.drop_succ_cons, List.drop_zero, List.map_map]
      refine List.map_congr_left fun c _ => ?_
      have line := readCase_line indent c.name none
      rw [caseValueText, String.append_empty] at line
      exact line

/-- The cases of an enum with known values are printed one by one under their
identifiers. These are different exactly if no two names are alike, which holds for
different names that have the form of identifiers themselves. -/
theorem Enum.print_identifiers_nodup_iff (indent : String) {e : Enum}
    (known : e.type ≠ .unknown) :
    ∃ printed : List PrintedCase, readCases indent (e.print indent) = printed.map some ∧
      printed.map PrintedCase.identifier = e.cases.map (fun c => Word.enumName c.name) ∧
      ((printed.map PrintedCase.identifier).Nodup ↔
        e.cases.Pairwise fun c d => ¬ Word.Alike c.name d.name) ∧
      ((∀ c ∈ e.cases, Word.IsCaseName c.name.toList) -> (e.cases.map EnumCase.name).Nodup ->
        (printed.map PrintedCase.identifier).Nodup) := by
  have read : readCases indent (e.print indent) =
      (e.cases.map fun c => PrintedCase.ofName c.name).map some := by
    rw [readCases_print indent known, List.map_map]
    rfl
  have identifiers : (e.cases.map fun c => PrintedCase.ofName c.name).map
      PrintedCase.identifier = e.cases.map fun c => Word.enumName c.name := by
    rw [List.map_map]
    rfl
  refine ⟨_, read, identifiers, ?_, ?_⟩
  · rw [identifiers, List.Nodup, List.pairwise_map]
    simp only [← Word.enumName_eq_enumName_iff]
  · intro form distinct
    have same : e.cases.map (fun c => Word.enumName c.name) = e.cases.map EnumCase.name :=
      List.map_congr_left fun c hc => Word.enumName_of_isCaseName (form c hc)
    rw [identifiers, same]
    exact distinct

def shades : Enum :=
  ⟨"Shade", [⟨"Red", .numeric, some "1"⟩, ⟨"red-ish", .numeric, some "2"⟩,
    ⟨"2nd red", .numeric, some "3"⟩, ⟨"", .numeric, none⟩]⟩

theorem shades_identifiers_nodup :
    shades.type ≠ .unknown ∧ (shades.cases.Pairwise fun c d => ¬ Word.Alike c.name d.name) ∧
      ∃ printed : List PrintedCase,
        readCases "    " (shades.print "    ") = printed.map some ∧
        printed.map PrintedCase.identifier = ["Red", "RedIsh", "_2ndRed", "Empty"] ∧
        (printed.map PrintedCase.identifier).Nodup := by
  have known : shades.type ≠ .unknown := by decide
  have apart : shades.cases.Pairwise fun c d => ¬ Word.Alike c.name d.name := by decide +kernel
  obtain ⟨printed, read, identifiers, nodup, -⟩ :=
    Enum.print_identifiers_nodup_iff "    " known
  have shown : shades.cases.map (fun c => Word.enumName c.name) =
      ["Red", "RedIsh", "_2ndRed", "Empty"] := by decide +kernel
  exact ⟨known, apart, printed, read, identifiers.trans shown, nodup.mpr apart⟩

def corners : Enum :=
  ⟨"Corner", [⟨"top-left", .text, none⟩, ⟨"topLeft", .text, none⟩]⟩

/-- Two different names are printed under one identifier. -/
theorem corners_share_identifier :
    corners.type = .text ∧ (corners.cases.map EnumCase.name).Nodup ∧
      ∃ printed : List PrintedCase, readCases "" (corners.print "") = printed.map some ∧
        printed.map PrintedCase.identifier = ["TopLeft", "TopLeft"] ∧
        ¬ (printed.map PrintedCase.identifier).Nodup := by
  refine ⟨by decide, by decide,
    [⟨some "top-left", "TopLeft"⟩, ⟨some "topLeft", "TopLeft"⟩], ?_, rfl, by decide⟩
  decide +kernel

end Bindgen
