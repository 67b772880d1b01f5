import Bindgen.Generate
import Bindgen.Proofs.Exports
import Bindgen.Proofs.Reading.Declarations
import Bindgen.Proofs.Words

/-! # Names of members

Where the names of properties, functions, parameters and variables come from when a
file is prepared, and which of them can stand in the generated code. Only two passes
change such names, one by escaping them and one by putting the string of an overload
behind them, and only the exports add a member of their own, under the name of an
interface. What escaping leaves alone may be a path of identifiers, which is no name
for a member: a prepared name is illegal exactly if it was such a path in the source.
-/

namespace Bindgen

/-! ## Legal names -/

namespace Word

def Undivided (name : String) : Prop :=
  '.' ∉ name.toList ∧ '\n' ∉ name.toList

instance (name : String) : Decidable (Undivided name) :=
  inferInstanceAs (Decidable (_ ∧ _))

/-- Identifiers joined by dots. A line feed may stand behind each of them. -/
def IsPath (name : String) : Prop :=
  ∀ part ∈ Text.dotted name, ∃ word : String, IsName word.toList ∧
    (part = word ∨ part = word ++ "\n")

/-- What can be the name of a member: anything between backticks, or one identifier
that is not reserved. -/
def Legal (name : String) : Prop :=
  Ticked name ∨ IsName name.toList ∧ isReserved name = false

theorem isIdentifierPath_iff {name : String} : isIdentifierPath name = true ↔ IsPath name := by
  rw [isIdentifierPath, List.all_eq_true, IsPath, Text.dotted, List.forall_mem_map]
  constructor
  · intro h part hpart
    obtain ⟨word, ends, isName⟩ := isIdentifier_iff.mp (h part hpart)
    refine ⟨String.ofList word, by rwa [String.toList_ofList], ?_⟩
    rcases ends with same | same
    · exact .inl (by rw [same])
    · exact .inr (by rw [same, String.ofList_append])
  · intro h part hpart
    obtain ⟨word, isName, ends⟩ := h part hpart
    refine isIdentifier_iff.mpr ⟨word.toList, ?_, isName⟩
    rcases ends with same | same
    · exact .inl (by rw [← same, String.toList_ofList])
    · exact .inr (by rw [← String.toList_ofList (l := part), same, String.toList_append]; rfl)

theorem IsPath.not_ticked {name : String} (h : IsPath name) : ¬ Ticked name := by
  intro ticked
  obtain ⟨rest, chars⟩ := ticked.1
  have path := isIdentifierPath_iff.mpr h
  rw [isIdentifierPath, ← chars] at path
  -- The first field starts with a backtick, and no identifier does.
  cases fields : Text.fields (· == '.') ('\x60' :: rest) with
  | nil => exact absurd fields (Text.fields_ne_nil _ _)
  | cons first others =>
      have split : Text.fields (· == '.') (ticks ++ rest) = ('\x60' :: first) :: others := by
        rw [ticks, List.cons_append, List.cons_append, List.nil_append, Text.fields, fields]
        rfl
      rw [split, List.all_cons, isIdentifier] at path
      cases path

theorem IsName.undivided {name : String} (h : IsName name.toList) : Undivided name := by
  constructor
  · intro dot
    exact absurd (h.isWordChar_of_mem dot) (by decide)
  · intro lineFeed
    exact absurd (h.isWordChar_of_mem lineFeed) (by decide)

theorem IsPath.isName {name : String} (h : IsPath name) (undivided : Undivided name) :
    IsName name.toList := by
  have noDot : ∀ c ∈ name.toList, (c == '.') = false := by
    intro c hc
    refine Bool.eq_false_iff.mpr fun dot => undivided.1 ?_
    rw [← eq_of_beq dot]
    exact hc
  have whole : name ∈ Text.dotted name := by
    rw [Text.dotted, fields_of_forall noDot, List.map_singleton, String.ofList_toList]
    exact List.mem_singleton.mpr rfl
  obtain ⟨word, isName, ends⟩ := h name whole
  rcases ends with same | same
  · rw [same]
    exact isName
  · refine absurd ?_ undivided.2
    rw [same, String.toList_append]
    exact List.mem_append_right _ List.mem_cons_self

theorem undivided_of_isReserved {name : String} (h : isReserved name = true) :
    Undivided name := by
  have each : (keywords ++ futureWords).all (fun word => decide (Undivided word)) = true := by
    decide +kernel
  rw [isReserved, Bool.or_eq_true, List.contains_iff_mem, List.contains_iff_mem,
    ← List.mem_append] at h
  exact of_decide_eq_true (List.all_eq_true.mp each name h)

/-- Either the spelling of a name has backticks, or the name is a path and spelled as it
is. Backticks are never put around a path of several identifiers. -/
theorem escape_ticked_or_path {name : String} (nonempty : name ≠ "") :
    Ticked (escape name) ∧ (IsPath name -> Undivided name) ∨
      escape name = name ∧ IsPath name ∧ isReserved name = false := by
  by_cases ticked : Ticked name
  · rw [escape_of_ticked ticked]
    exact .inl ⟨ticked, fun path => absurd ticked path.not_ticked⟩
  · have plain : ¬ (name.isEmpty || isTicked name.toList) = true := by
      simp [nonempty, isTicked_eq_false ticked]
    rw [escape, if_neg plain]
    by_cases needs : (isReserved name || !isIdentifierPath name) = true
    · left
      rw [if_pos needs]
      constructor
      · rw [← isTicked_iff, String.toList_ofList]
        exact isTicked_ticks name.toList
      · intro path
        rcases (Bool.or_eq_true _ _).mp needs with reserved | noPath
        · exact undivided_of_isReserved reserved
        · simp [isIdentifierPath_iff.mpr path] at noPath
    · right
      rw [if_neg needs]
      simp only [Bool.or_eq_true, Bool.not_eq_true', not_or, Bool.not_eq_true,
        Bool.not_eq_false, isIdentifierPath_iff] at needs
      exact ⟨rfl, needs.2, needs.1⟩

theorem ticked_or_isPath_escape {name : String} (nonempty : name ≠ "") :
    Ticked (escape name) ∨ IsPath (escape name) ∧ isReserved (escape name) = false := by
  rcases escape_ticked_or_path nonempty with ⟨ticked, -⟩ | ⟨same, path, free⟩
  · exact .inl ticked
  · rw [same]
    exact .inr ⟨path, free⟩

/-- The spelling of a name is legal exactly if the name is no path with several
identifiers or a line feed in it. -/
theorem legal_escape_iff {name : String} (nonempty : name ≠ "") :
    Legal (escape name) ↔ (IsPath name -> Undivided name) := by
  rcases escape_ticked_or_path nonempty with ⟨ticked, undivided⟩ | ⟨same, path, free⟩
  · exact iff_of_true (.inl ticked) undivided
  · rw [same]
    constructor
    · intro legal _
      exact (legal.resolve_left path.not_ticked).1.undivided
    · intro undivided
      exact .inr ⟨path.isName (undivided path), free⟩

theorem undivided_append {name other : String} :
    Undivided (name ++ other) ↔ Undivided name ∧ Undivided other := by
  simp only [Undivided, String.toList_append, List.mem_append, not_or]
  exact and_and_and_comm

theorem Undivided.of_subset {name other : String} (h : Undivided name)
    (subset : other.toList ⊆ name.toList) : Undivided other :=
  ⟨fun dot => h.1 (subset dot), fun lineFeed => h.2 (subset lineFeed)⟩

theorem Undivided.escape {name : String} (h : Undivided name) : Undivided (escape name) := by
  constructor
  · intro dot
    rcases mem_escape dot with own | tick
    · exact h.1 own
    · exact absurd tick (by decide)
  · intro lineFeed
    rcases mem_escape lineFeed with own | tick
    · exact h.2 own
    · exact absurd tick (by decide)

end Word

/-! ## Texts that get into names -/

/-- What a name is the name of: a member, an interface, or one that holds the static
members of another. The string of a literal type is a text, too. -/
inductive Role where
  | member
  | interface
  | holder
  | literal
deriving DecidableEq

/-- The text of a declaration that can get into the name of a member. -/
def Decl.nameText? : Decl -> Option (Role × String)
  | .property p => some (.member, p.name)
  | .function s => s.name.map fun name => (.member, name)
  | .param p => some (.member, p.name)
  | .var v => some (.member, v.name)
  | .interface i => some (if i.isStatic then .holder else .interface, i.name)
  | .literal text => some (.literal, text)
  | _ => none

/-- The text of the declaration, if it has one, is as its role asks for. -/
def Decl.Tells (P : Role -> String -> Prop) (d : Decl) : Prop :=
  ∀ role text, d.nameText? = some (role, text) -> P role text

section

variable {P Q : Role -> String -> Prop}

theorem Decl.Tells.congr {d e : Decl} (h : d.Tells P) (same : e.nameText? = d.nameText?) :
    e.Tells P := by
  intro role text found
  exact h role text (same ▸ found)

theorem Decl.Tells.mono {d : Decl} (h : d.Tells P)
    (weaken : ∀ role text, P role text -> Q role text) : d.Tells Q := by
  intro role text found
  exact weaken role text (h role text found)

theorem Decl.tells_of_eq_none {d : Decl} (h : d.nameText? = none) : d.Tells P := by
  intro role text found
  rw [h] at found
  cases found

end

/-! ## Passes that leave texts alone -/

def Rewriting.Silent (w : Rewriting) : Prop :=
  ∀ d, (w.apply d).nameText? = d.nameText?

theorem Decl.nameText?_rebuild (w : Rewriting) (d : Decl) :
    (d.rebuild w).nameText? = d.nameText? := by
  cases d <;> rfl

namespace Rewriting

variable {w : Rewriting} {P : Role -> String -> Prop}

theorem Silent.nameText?_rewrite (hw : w.Silent) (d : Decl) :
    (d.rewrite w).nameText? = d.nameText? := by
  rw [Decl.rewrite_eq_apply, hw, Decl.nameText?_rebuild]

/-- It is enough to look at what the function puts into a declaration. -/
theorem Silent.keeps (hw : w.Silent)
    (children : ∀ d, d.Every (Decl.Tells P) ->
      ∀ c ∈ (w.apply d).children, c.Every (Decl.Tells P)) : w.Keeps (Decl.Tells P) where
  rebuild d h := h.congr (Decl.nameText?_rebuild w d)
  apply d h := Decl.every_iff.mpr ⟨h.self.congr (hw d), children d h⟩

theorem Silent.keeps_of_shrinks (hw : w.Silent) (shrinks : w.Shrinks) :
    w.Keeps (Decl.Tells P) :=
  hw.keeps fun d h c hc => h.child (shrinks d c hc)

theorem resolveSelf_silent : resolveSelf.Silent := by
  intro d
  cases d <;> rfl

theorem collapseArrays_silent (marker : String) : (collapseArrays marker).Silent := by
  intro d
  simp only [collapseArrays, ofTypes]
  rcases d.collapseArray_cases marker with same | ⟨element, rfl, collapsed⟩
  · rw [same]
  · rw [collapsed]
    rfl

theorem renameDates_silent : renameDates.Silent := by
  intro d
  cases d <;> rfl

theorem splitStatics_silent (suffix : String) : (splitStatics suffix).Silent := by
  intro d
  cases d <;> rfl

theorem addExports_silent (name suffix : String) : (addExports name suffix).Silent := by
  intro d
  cases d <;> rfl

theorem quoteNames_silent (bound : List String) : (quoteNames bound).Silent := by
  intro d
  cases d <;> rfl

theorem quoteFunctions_silent : quoteFunctions.Silent := by
  intro d
  cases d <;> rfl

theorem quoteTypes_silent : quoteTypes.Silent := by
  have quoted : ∀ (typeParams : List Decl) (d : Decl),
      (d.quoted typeParams).nameText? = d.nameText? := by
    intro typeParams d
    unfold Decl.quoted
    split
    · rfl
    · exact (quoteNames_silent _).nameText?_rewrite d
  intro d
  cases d with
  | interface i => exact quoted i.typeParams (.interface i)
  | typeAlias a => exact quoted a.typeParams (.typeAlias a)
  | _ => rfl

theorem capUnions_silent (limit : Int) : (capUnions limit).Silent := by
  intro d
  cases d with
  | union optional alternatives =>
      simp only [capUnions, ofTypes]
      rcases Decl.cappedUnion_cases limit optional alternatives with obj | ⟨-, capped⟩
      · rw [obj]
        rfl
      · rw [capped]
        rfl
  | _ => rfl

theorem quoteNames_keeps_tells (bound : List String) : (quoteNames bound).Keeps (Decl.Tells P) :=
  (quoteNames_silent bound).keeps_of_shrinks (quoteNames_shrinks bound)

theorem resolveSelf_keeps_tells : resolveSelf.Keeps (Decl.Tells P) := by
  refine resolveSelf_silent.keeps ?_
  intro d h c hc
  cases d with
  | interface i =>
      have selfType : i.selfType.Every (Decl.Tells P) := by
        refine Decl.every_iff.mpr ⟨Decl.tells_of_eq_none rfl, List.forall_mem_cons.mpr ⟨?_, ?_⟩⟩
        · exact Decl.every_named (Decl.tells_of_eq_none rfl)
        · exact fun p hp => h.child (List.mem_append_left _ (List.mem_append_left _ hp))
      have members := h.mapMembers h.self fun _ hd => hd.resultOf (fun _ told => told) selfType
      exact members.child hc
  | _ => exact h.child hc

theorem quoteFunctions_keeps_tells : quoteFunctions.Keeps (Decl.Tells P) := by
  refine quoteFunctions_silent.keeps ?_
  intro d h c hc
  cases d with
  | interface i =>
      have members := h.mapMembers h.self fun _ hd => hd.quotedFunction quoteNames_keeps_tells
      exact members.child hc
  | _ => exact h.child hc

theorem quoteTypes_keeps_tells : quoteTypes.Keeps (Decl.Tells P) := by
  refine quoteTypes_silent.keeps ?_
  intro d h c hc
  cases d with
  | interface i => exact (h.quoted quoteNames_keeps_tells i.typeParams).child hc
  | typeAlias a => exact (h.quoted quoteNames_keeps_tells a.typeParams).child hc
  | _ => exact h.child hc

end Rewriting

/-! ## Passes that make names -/

section

variable {P Q : Role -> String -> Prop} {suffix : String}

theorem Decl.Every.tells_splitStatic
    (holder : ∀ name, P .interface name -> P .holder (name ++ suffix)) {d e : Decl}
    (h : d.Every (Decl.Tells P)) (he : e ∈ Decl.splitStatic suffix d) :
    e.Every (Decl.Tells P) := by
  rcases d.split_or_whole with ⟨i, rfl, isStatic, hasStatic⟩ | whole
  · have own : P .interface i.name := by
      refine h.self _ _ ?_
      rw [Decl.nameText?, if_neg (by simp [isStatic])]
    rw [Decl.splitStatic_of_split suffix isStatic hasStatic, List.mem_cons,
      List.mem_singleton] at he
    rcases he with rfl | rfl
    · have part : i.rest.PartOf i := ⟨rfl, fun _ => id, fun _ hc => (List.mem_filter.mp hc).1⟩
      exact h.of_children h.self part.children
    · have part : (i.holder suffix).PartOf i :=
        ⟨rfl, nofun, fun _ hc => (List.mem_filter.mp hc).1⟩
      refine h.of_children ?_ part.children
      intro role text found
      cases found
      exact holder i.name own
  · rw [Decl.splitStatic_of_whole suffix whole, List.mem_singleton] at he
    exact he ▸ h

theorem Decl.Every.tells_exported
    (accessor : ∀ name, P .holder name -> P .member (withoutSuffix suffix name)) {d e : Decl}
    (h : d.Every (Decl.Tells P)) (he : d.exported? suffix = some e) :
    e.Every (Decl.Tells P) := by
  cases d with
  | interface i =>
      by_cases isStatic : i.isStatic = true
      · have own : P .holder i.name := by
          refine h.self _ _ ?_
          rw [Decl.nameText?, if_pos isStatic]
        rw [Decl.exported?, if_pos isStatic] at he
        cases he
        refine Decl.every_iff.mpr ⟨?_, List.forall_mem_singleton.mpr ?_⟩
        · intro role text found
          cases found
          exact accessor i.name own
        · exact Decl.every_named (Decl.tells_of_eq_none rfl)
      · rw [Decl.exported?, if_neg isStatic] at he
        cases he
  | var v | function s =>
      cases he
      exact h
  | _ => cases he

namespace Rewriting

theorem splitStatics_keeps_tells
    (holder : ∀ name, P .interface name -> P .holder (name ++ suffix)) :
    (splitStatics suffix).Keeps (Decl.Tells P) := by
  refine (splitStatics_silent suffix).keeps ?_
  intro d h c hc
  cases d with
  | module m =>
      obtain ⟨entry, hentry, hc⟩ := List.mem_flatMap.mp hc
      exact (h.child hentry).tells_splitStatic holder hc
  | _ => exact h.child hc

theorem addExports_keeps_tells (name : String) (exports : P .interface name)
    (accessor : ∀ name, P .holder name -> P .member (withoutSuffix suffix name)) :
    (addExports name suffix).Keeps (Decl.Tells P) := by
  refine (addExports_silent name suffix).keeps ?_
  intro d h c hc
  cases d with
  | module m =>
      rcases Module.mem_withExports hc with rfl | hc
      · refine Decl.every_iff.mpr ⟨?_, ?_⟩
        · intro role text found
          cases found
          exact exports
        · intro e he
          obtain ⟨entry, hentry, exported⟩ := List.mem_filterMap.mp he
          exact (h.child hentry).tells_exported accessor exported
      · exact h.child hc
  | _ => exact h.child hc

end Rewriting

/-- The spelling of a text: strings stay as they are, and names are escaped. -/
def Role.spelling (role : Role) (text : String) : String :=
  if role = .literal then text else Word.escape text

theorem Decl.nameText?_escapeName (d : Decl) :
    d.escapeName.nameText? = d.nameText?.map fun told => (told.1, told.1.spelling told.2) := by
  cases d with
  | function s =>
      cases name : s.name <;> simp [Decl.escapeName, Decl.nameText?, name, Role.spelling]
  | interface i =>
      cases isStatic : i.isStatic <;>
        simp [Decl.escapeName, Decl.nameText?, isStatic, Role.spelling]
  | _ => rfl

theorem Decl.Every.tells_escapeNames
    (spelling : ∀ role text, P role text -> Q role (role.spelling text)) {d : Decl}
    (h : d.Every (Decl.Tells P)) : (d.rewrite .escapeNames).Every (Decl.Tells Q) := by
  refine h.rewrite_of_shrinks Rewriting.escapeNames_shrinks ?_
  intro d told role name found
  have same : (Rewriting.escapeNames.apply (d.rebuild .escapeNames)).nameText? =
      d.nameText?.map fun told => (told.1, told.1.spelling told.2) := by
    rw [← Decl.nameText?_rebuild .escapeNames d]
    exact Decl.nameText?_escapeName _
  rw [same, Option.map_eq_some_iff] at found
  obtain ⟨⟨role, text⟩, own, rfl, rfl⟩ := found
  exact spelling role text (told role text own)

/-- The new name is made of the old one and the string of a parameter. -/
theorem Signature.tells_specialize (weaken : ∀ role text, P role text -> Q role text)
    (overload : ∀ name text, P .member name -> Q .literal text ->
      Q .member (Word.escape (Word.unescape name ++ "_" ++ text)))
    {s : Signature} (told : (Decl.function s).Tells P)
    (inside : ∀ c ∈ (Decl.function s).children, c.Every (Decl.Tells Q)) :
    (Decl.function s.specialize).Tells Q := by
  unfold Signature.specialize
  split
  case h_2 => exact told.mono weaken
  case h_1 name paramName optional isRest text params emit named first =>
      have hname : P .member name := by
        refine told _ _ ?_
        rw [Decl.nameText?, named, Option.map_some]
      have htext : Q .literal text := by
        have param : .param ⟨paramName, optional, isRest, .literal text⟩ ∈
            (Decl.function s).children := by
          simp [Decl.children, first]
        have literal := (inside _ param).child (c := .literal text) List.mem_cons_self
        exact literal.self _ _ rfl
      intro role new found
      cases found
      exact overload name text hname htext

theorem Decl.Every.tells_specializeOverloads
    (weaken : ∀ role text, P role text -> Q role text)
    (overload : ∀ name text, P .member name -> Q .literal text ->
      Q .member (Word.escape (Word.unescape name ++ "_" ++ text)))
    {d : Decl} (h : d.Every (Decl.Tells P)) :
    (d.rewrite .specializeOverloads).Every (Decl.Tells Q) := by
  refine h.rewrite ?_
  intro d told inside
  have kept := Rewriting.specializeOverloads_shrinks (d.rebuild .specializeOverloads)
  refine Decl.every_iff.mpr ⟨?_, fun c hc => inside c (kept c hc)⟩
  have rebuilt : (d.rebuild .specializeOverloads).Tells P :=
    told.congr (Decl.nameText?_rebuild _ d)
  generalize d.rebuild .specializeOverloads = e at rebuilt inside
  cases e with
  | function s => exact Signature.tells_specialize weaken overload rebuilt inside
  | _ => exact rebuilt.mono weaken

end

/-! ## All passes together -/

def File.HasLiteral (f : File) (text : String) : Prop :=
  ∃ d ∈ f.parts, d.nameText? = some (.literal, text)

/-- The names from which members get theirs: those of members and interfaces, and of a
static interface the name that it holds the members of. -/
inductive File.OwnName (f : File) (suffix : String) : String -> Prop where
  | member {d : Decl} {text : String} (hd : d ∈ f.parts)
      (own : d.nameText? = some (.member, text)) : OwnName f suffix text
  | interface {d : Decl} {text : String} (hd : d ∈ f.parts)
      (own : d.nameText? = some (.interface, text)) : OwnName f suffix text
  | holder {d : Decl} {text : String} (hd : d ∈ f.parts)
      (own : d.nameText? = some (.holder, text)) : OwnName f suffix (withoutSuffix suffix text)

/-- What is spelled in the name of a member: a name of the file, alone or with a string
of the file behind it. -/
inductive File.NameSource (f : File) (suffix : String) : String -> Prop where
  | own {text : String} (name : f.OwnName suffix text) : NameSource f suffix text
  | overload {text string : String} (name : f.OwnName suffix text)
      (literal : f.HasLiteral string) :
      NameSource f suffix (Word.unescape (Word.escape text) ++ "_" ++ string)

/-- The texts up to the exports: names are still those of the file. -/
def File.Bare (f : File) (suffix : String) : Role -> String -> Prop
  | .member, text => f.OwnName suffix text
  | .interface, text => f.OwnName suffix text
  | .holder, text => f.OwnName suffix (withoutSuffix suffix text)
  | .literal, text => f.HasLiteral text

/-- The texts from then on: members have the spellings of `names`. -/
def File.Spelled (f : File) (names : String -> Prop) : Role -> String -> Prop
  | .member, name => ∃ text, names text ∧ name = Word.escape text
  | .literal, text => f.HasLiteral text
  | _, _ => True

theorem File.tells_bare (f : File) (suffix : String) :
    ∀ d ∈ f.parts, d.Tells (f.Bare suffix) := by
  intro d hd role text own
  cases role with
  | member => exact .member hd own
  | interface => exact .interface hd own
  | holder => exact .holder hd own
  | literal => exact ⟨d, hd, own⟩

theorem Decl.Every.tells_rewriteEntries {P : Role -> String -> Prop} {w : Rewriting}
    (hw : w.Keeps (Decl.Tells P)) {m : Module} (h : (Decl.module m).Every (Decl.Tells P)) :
    (Decl.module (m.rewriteEntries w)).Every (Decl.Tells P) := by
  refine Decl.every_iff.mpr ⟨Decl.tells_of_eq_none rfl, ?_⟩
  exact List.forall_mem_map.mpr fun e he => (h.child he).rewrite_of_keeps hw

section

variable {f : File} {settings : Settings} {m : Module}

theorem Decl.Every.bare_settledTypes {suffix : String} (settings : Settings)
    (path : List String)
    (h : (Decl.module m).Every (Decl.Tells (f.Bare suffix))) :
    (Decl.module (m.settledImports settings path).settledTypes).Every
      (Decl.Tells (f.Bare suffix)) := by
  have imports := h.settledImports (fun _ => Decl.tells_of_eq_none rfl)
    (fun _ _ _ => Decl.tells_of_eq_none rfl) settings path
  have resolved := imports.tells_rewriteEntries Rewriting.resolveSelf_keeps_tells
  have arrays := resolved.tells_rewriteEntries
    ((Rewriting.collapseArrays_silent nodeArrayMarker).keeps_of_shrinks
      (Rewriting.collapseArrays_shrinks nodeArrayMarker))
  exact arrays.tells_rewriteEntries
    (Rewriting.renameDates_silent.keeps_of_shrinks Rewriting.renameDates_shrinks)

/-- The name of the exports interface need not come from the file. It gets into no other
name, since static members are split off before. -/
theorem Decl.Every.spelled_escapeNames
    (h : (Decl.module m).Every (Decl.Tells (f.Bare settings.staticSuffix))) :
    (Decl.module (((m.rewrite (.splitStatics settings.staticSuffix)).rewrite
      (.addExports settings.exportsName settings.staticSuffix)).rewrite .escapeNames)).Every
      (Decl.Tells (f.Spelled (f.OwnName settings.staticSuffix))) := by
  have split : (Decl.module (m.rewrite (.splitStatics settings.staticSuffix))).Every
      (Decl.Tells (f.Bare settings.staticSuffix)) := by
    refine h.rewriteModule_of_keeps (Rewriting.splitStatics_keeps_tells ?_)
    intro name own
    rw [File.Bare, (shortens_withoutSuffix settings.staticSuffix _).of_append]
    exact own
  have anyInterface := split.mono fun e told => told.mono
    (Q := fun role text => role = .interface ∨ f.Bare settings.staticSuffix role text)
    fun _ _ => .inr
  have exports := anyInterface.rewriteModule_of_keeps
    (Rewriting.addExports_keeps_tells settings.exportsName (.inl rfl)
      fun name own => .inr (own.resolve_left nofun))
  rw [← Decl.rewrite_module]
  refine exports.tells_escapeNames ?_
  intro role text told
  cases role with
  | member => exact ⟨text, told.resolve_left nofun, rfl⟩
  | literal => exact told.resolve_left nofun
  | interface | holder => trivial

theorem Decl.Every.spelled_prepared
    (h : (Decl.module m).Every (Decl.Tells (f.Bare settings.staticSuffix))) (path : List String) :
    (Decl.module (m.prepared settings path)).Every
      (Decl.Tells (f.Spelled (f.NameSource settings.staticSuffix))) := by
  have escaped := (h.bare_settledTypes settings path).spelled_escapeNames
  have functions := escaped.rewriteModule_of_keeps Rewriting.quoteFunctions_keeps_tells
  have types := functions.rewriteModule_of_keeps Rewriting.quoteTypes_keeps_tells
  have overloads := types.tells_specializeOverloads
    (Q := f.Spelled (f.NameSource settings.staticSuffix)) ?_ ?_
  · rw [Decl.rewrite_module] at overloads
    exact overloads.rewriteModule_of_keeps
      ((Rewriting.capUnions_silent settings.maxUnionArity).keeps_of_shrinks
        (Rewriting.capUnions_shrinks settings.maxUnionArity))
  · intro role name told
    cases role with
    | member =>
        obtain ⟨text, own, spelling⟩ := told
        exact ⟨text, .own own, spelling⟩
    | literal => exact told
    | interface | holder => trivial
  · intro name string told literal
    obtain ⟨text, own, rfl⟩ := told
    exact ⟨_, .overload own literal, rfl⟩

end

theorem File.spelled_of_prepare {settings : Settings} {f g : File}
    (prepared : (f.prepare settings).outcome = .ok g) :
    ∀ d ∈ g.parts, d.Tells (f.Spelled (f.NameSource settings.staticSuffix)) := by
  refine File.forall_mem_parts.mpr ?_
  rw [File.modules_of_prepare prepared, List.forall_mem_map]
  intro m hm
  have bare := File.forall_mem_parts.mp (f.tells_bare settings.staticSuffix) m hm
  exact bare.spelled_prepared [f.name]

section

variable {f : File} {suffix text : String}
  (texts : ∀ d ∈ f.parts, d.Tells fun _ text => Word.Undivided text)

include texts

theorem File.OwnName.undivided (h : f.OwnName suffix text) : Word.Undivided text := by
  cases h with
  | member hd own => exact texts _ hd _ _ own
  | interface hd own => exact texts _ hd _ _ own
  | @holder d name hd own =>
      refine (texts _ hd _ _ own).of_subset ?_
      rcases shortens_withoutSuffix suffix name with ⟨-, whole⟩ | ⟨-, same⟩
      · intro c hc
        rw [whole, String.toList_append]
        exact List.mem_append_left _ hc
      · rw [same]
        exact List.Subset.refl _

theorem File.NameSource.undivided (h : f.NameSource suffix text) : Word.Undivided text := by
  cases h with
  | own name => exact name.undivided texts
  | @overload name string own literal =>
      obtain ⟨d, hd, told⟩ := literal
      have raw : Word.Undivided (Word.unescape (Word.escape name)) :=
        (own.undivided texts).escape.of_subset fun _ => Word.mem_unescape
      rw [Word.undivided_append, Word.undivided_append]
      exact ⟨⟨raw, by decide⟩, texts d hd _ _ told⟩

end

/-- Every name of a member in a prepared file has backticks around it or is a path of
identifiers, and it spells a name of the file, alone or with a string behind it. It is
legal exactly if what it spells is no path with a dot or a line feed in it, so all names
are legal if there are no dots and line feeds in the texts of the file. -/
theorem File.prepared_member_legal_iff (settings : Settings) (f : File) :
    ∃ g, (f.prepare settings).outcome = .ok g ∧
      (∀ d ∈ g.parts, ∀ name, d.nameText? = some (.member, name) -> name ≠ "" ->
        (Word.Ticked name ∨ Word.IsPath name ∧ Word.isReserved name = false) ∧
        ∃ text, f.NameSource settings.staticSuffix text ∧ name = Word.escape text ∧
          (Word.Legal name ↔ (Word.IsPath text -> Word.Undivided text))) ∧
      ((∀ d ∈ f.parts, d.Tells fun _ text => Word.Undivided text) ->
        ∀ d ∈ g.parts, ∀ name, d.nameText? = some (.member, name) -> name ≠ "" ->
          Word.Legal name) := by
  obtain ⟨opens, prepared⟩ := prepare_outcome settings f
  have spelled := File.spelled_of_prepare prepared
  have nonempty : ∀ {text : String}, Word.escape text ≠ "" -> text ≠ "" := by
    intro text some empty
    rw [empty] at some
    exact some rfl
  refine ⟨_, prepared, ?_, ?_⟩
  · intro d hd name own some
    obtain ⟨text, source, rfl⟩ := spelled d hd _ _ own
    exact ⟨Word.ticked_or_isPath_escape (nonempty some), text, source, rfl,
      Word.legal_escape_iff (nonempty some)⟩
  · intro undivided d hd name own some
    obtain ⟨text, source, rfl⟩ := spelled d hd _ _ own
    exact (Word.legal_escape_iff (nonempty some)).mpr fun _ => source.undivided undivided

def optionsTree (key : String) : Syntax.Node :=
  spelled "program" none 1 "" [
    spelled "interface_declaration" none 1 "" [
      spelled "type_identifier" (some "name") 1 "Options" [],
      spelled "interface_body" (some "body") 1 "" [
        spelled "property_signature" none 2 "" [
          spelled "string" (some "name") 2 ("\"" ++ key ++ "\"") [],
          spelled "type_annotation" (some "type") 2 "" [
            spelled "predefined_type" none 2 "number" []]]]]]

/-- A string with a dot in it is taken for a path and gets no backticks. -/
theorem optionsTree_member_illegal :
    ∃ f g d, (File.read {} "chart.d.ts" "Chart" (optionsTree "grid.size")).outcome = .ok f ∧
      (f.prepare {}).outcome = .ok g ∧ d ∈ g.parts ∧
      d.nameText? = some (.member, "grid.size") ∧ ¬ Word.Legal "grid.size" := by
  let size : Decl := .property ⟨none, false, none, "grid.size", false, .named "float"⟩
  let options : Decl := .interface ⟨false, "Options", [], [], [size]⟩
  have value : (File.read {} "chart.d.ts" "Chart" (optionsTree "grid.size")).outcome.toOption.map
      (fun f => (f.prepare {}).outcome.toOption.map Decl.file) =
        some (some (.file ⟨"Chart", Settings.opens {}, [⟨"", [options]⟩]⟩)) := by
    decide +kernel
  obtain ⟨f, read, value⟩ := Option.map_eq_some_iff.mp value
  obtain ⟨g, prepared, isFile⟩ := Option.map_eq_some_iff.mp value
  obtain rfl := Decl.file.inj isFile
  refine ⟨f, _, size, ok_of_toOption read, ok_of_toOption prepared, ?_, rfl, ?_⟩
  · decide +kernel
  · intro legal
    rcases legal with ticked | ⟨isName, -⟩
    · exact absurd ticked (by decide)
    · exact isName.undivided.1 (by decide)

end Bindgen
