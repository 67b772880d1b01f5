import Bindgen.Decl.Equality
import Bindgen.Proofs.TypeTexts.Types

/-! # What the text of a type tells

The phrase of a type can be read back, but stars and option marks have no brackets
around them. So the text of a flat type, in which no tuple is grouped inside a tuple
or made optional as a whole, tells the type up to what is not shown of functions. In
other types the groups are lost: what is printed is the row of their names, each with
its option marks.
-/

namespace Bindgen

/-! ## What the text of a type does not show -/

mutual

/-- The type without what is not printed of its functions: templates, names, type
parameters, and all of a parameter but its type. -/
def Decl.shown : Decl -> Decl
  | .array element => .array element.shown
  | .union optional alternatives => .union optional (Decl.allShown alternatives)
  | .generic base arguments => .generic base.shown (Decl.allShown arguments)
  | .function ⟨_, _, _, _, params, result⟩ =>
    .function ⟨none, false, none, [], Param.allShown params, result.shown⟩
  | .tuple elements => .tuple (Decl.allShown elements)
  | d => d

def Decl.allShown : List Decl -> List Decl
  | [] => []
  | d :: ds => d.shown :: Decl.allShown ds

def Param.allShown : List Param -> List Param
  | [] => []
  | ⟨_, _, _, type⟩ :: ps => ⟨"", false, false, type.shown⟩ :: Param.allShown ps

end

theorem Decl.allShown_eq_map (ds : List Decl) : Decl.allShown ds = ds.map Decl.shown := by
  induction ds with
  | nil => rfl
  | cons d ds ih => rw [Decl.allShown, ih, List.map_cons]

theorem Param.allShown_eq_map (ps : List Param) :
    Param.allShown ps = ps.map fun p => ⟨"", false, false, p.type.shown⟩ := by
  induction ps with
  | nil => rfl
  | cons p ps ih =>
      obtain ⟨_, _, _, type⟩ := p
      rw [Param.allShown, ih, List.map_cons]

mutual

theorem Decl.typeText_shown (d : Decl) : d.shown.typeText = d.typeText := by
  cases d with
  | array element => rw [Decl.shown, Decl.typeText, Decl.typeText, Decl.typeText_shown element]
  | union optional alternatives =>
      rw [Decl.shown, Decl.typeText, Decl.typeText, Decl.typeTexts_allShown alternatives]
  | generic base arguments =>
      rw [Decl.shown, Decl.typeText, Decl.typeText, Decl.typeText_shown base,
        Decl.typeTexts_allShown arguments]
  | function f =>
      obtain ⟨emit, isStatic, name, typeParams, params, result⟩ := f
      rw [Decl.shown, Decl.typeText, Decl.typeText, Param.typeTexts_allShown params,
        Decl.typeText_shown result]
  | tuple elements =>
      rw [Decl.shown, Decl.typeText, Decl.typeText, Decl.typeTexts_allShown elements]
  | _ => rfl

theorem Decl.typeTexts_allShown (ds : List Decl) :
    Decl.typeTexts (Decl.allShown ds) = Decl.typeTexts ds := by
  cases ds with
  | nil => rfl
  | cons d ds =>
      rw [Decl.allShown, Decl.typeTexts, Decl.typeTexts, Decl.typeText_shown d,
        Decl.typeTexts_allShown ds]

theorem Param.typeTexts_allShown (ps : List Param) :
    Param.typeTexts (Param.allShown ps) = Param.typeTexts ps := by
  cases ps with
  | nil => rfl
  | cons p ps =>
      obtain ⟨name, optional, isRest, type⟩ := p
      rw [Param.allShown, Param.typeTexts, Param.typeTexts, Decl.typeText_shown type,
        Param.typeTexts_allShown ps]

end

/-! ## Reading a phrase back -/

/-- The names of erased union types: a `U` and digits. -/
def isUnionName (name : String) : Bool :=
  match name.toList with
  | 'U' :: digit :: digits => (digit :: digits).all Char.isDigit
  | _ => false

def optionType (optional : Bool) (type : Decl) : Decl :=
  if optional then .union true [type] else type

/-- The type that a name with arguments stands for. The option mark of an erased
union type belongs to the union. -/
def applicationType (optional : Bool) (name : String) : List Decl -> Decl
  | [] => optionType optional (.named name)
  | argument :: arguments =>
    if name = "ResizeArray" then optionType optional (.array argument)
    else if isUnionName name then .union optional (argument :: arguments)
    else optionType optional (.generic (.named name) (argument :: arguments))

/-- The type of a function, of which nothing is known but the types. -/
def functionType (types : List Decl) : Decl :=
  .function ⟨none, false, none, [], types.dropLast.map fun type => ⟨"", false, false, type⟩,
    types.getLastD .absent⟩

def tupleType : List Decl -> Decl
  | [type] => type
  | types => .tuple types

mutual

def Factor.type : Factor -> Decl
  | .applied name arguments marks => applicationType (marks != 0) name (Phrase.types arguments)
  | .arrow types marks => optionType (marks != 0) (functionType (Phrase.types types))

def Factor.types : List Factor -> List Decl
  | [] => []
  | f :: fs => f.type :: Factor.types fs

def Phrase.types : List Phrase -> List Decl
  | [] => []
  | p :: ps => tupleType (Factor.types p) :: Phrase.types ps

end

def Phrase.type (p : Phrase) : Decl :=
  tupleType (p.map Factor.type)

theorem Factor.types_eq_map (fs : List Factor) : Factor.types fs = fs.map Factor.type := by
  induction fs with
  | nil => rfl
  | cons f fs ih => rw [Factor.types, ih, List.map_cons]

theorem Phrase.types_eq_map (ps : List Phrase) : Phrase.types ps = ps.map Phrase.type := by
  induction ps with
  | nil => rfl
  | cons p ps ih => rw [Phrase.types, ih, List.map_cons, Phrase.type, Factor.types_eq_map]

def Decl.isTuple : Decl -> Bool
  | .tuple _ => true
  | _ => false

def Decl.isUnion : Decl -> Bool
  | .union .. => true
  | _ => false

/-- Types in which no tuple is an element of a tuple, and no union or tuple is made
optional by a union around it. Names with arguments are not those of arrays and of
erased union types, and functions have parameters. -/
inductive Decl.Flat : Decl -> Prop
  | named {name : String} : IsTypeName name -> (Decl.named name).Flat
  | array {element : Decl} : element.Flat -> (Decl.array element).Flat
  | generic {base : String} {arguments : List Decl} : IsTypeName base -> base ≠ "ResizeArray" ->
    isUnionName base = false -> arguments ≠ [] -> (∀ a ∈ arguments, a.Flat) ->
      (Decl.generic (.named base) arguments).Flat
  | function {f : Signature} : f.params ≠ [] -> (∀ p ∈ f.params, p.type.Flat) -> f.result.Flat ->
    (Decl.function f).Flat
  | union {alternatives : List Decl} (optional : Bool) : 2 ≤ alternatives.length ->
    (∀ a ∈ alternatives, a.Flat) -> (Decl.union optional alternatives).Flat
  | optional {type : Decl} : type.isUnion = false -> type.isTuple = false -> type.Flat ->
    (Decl.union true [type]).Flat
  | tuple {elements : List Decl} : 2 ≤ elements.length -> (∀ e ∈ elements, e.isTuple = false) ->
    (∀ e ∈ elements, e.Flat) -> (Decl.tuple elements).Flat

theorem Decl.Flat.phrased {d : Decl} (h : d.Flat) : d.Phrased := by
  induction h with
  | named name => exact .named name
  | array _ element => exact .array element
  | generic name _ _ _ _ arguments => exact .generic name arguments
  | function nonempty _ _ params result => exact .function nonempty params result
  | union optional several _ alternatives =>
      exact .union (List.ne_nil_of_length_pos (by omega)) alternatives
  | optional _ _ _ type => exact .union (by simp) (by simpa using type)
  | tuple several _ _ elements =>
      exact .tuple (List.ne_nil_of_length_pos (by omega)) elements

/-! ## A flat type is told by its phrase -/

theorem isUnionName_union (n : Nat) : isUnionName ("U" ++ toString n) = true := by
  have some : (toString n).toList ≠ [] := by simp [toString, Nat.repr]
  obtain ⟨digit, digits, chars⟩ := List.exists_cons_of_ne_nil some
  have all : ∀ c ∈ digit :: digits, c.isDigit = true :=
    fun c hc => isDigit_of_mem_toString (chars ▸ hc)
  have name : ("U" ++ toString n).toList = 'U' :: digit :: digits := by
    rw [String.toList_append, chars]
    rfl
  rw [isUnionName, name]
  exact List.all_eq_true.mpr all

theorem union_ne_array (n : Nat) : "U" ++ toString n ≠ "ResizeArray" := by
  intro same
  have chars := congrArg String.toList same
  rw [String.toList_append] at chars
  cases chars

theorem applicationType_union (optional : Bool) {name : String} (isUnion : isUnionName name = true)
    (notArray : name ≠ "ResizeArray") {types : List Decl} (h : types ≠ []) :
    applicationType optional name types = .union optional types := by
  obtain ⟨type, types, rfl⟩ := List.exists_cons_of_ne_nil h
  rw [applicationType, if_neg notArray, if_pos isUnion]

theorem applicationType_generic (optional : Bool) {name : String}
    (notUnion : isUnionName name = false) (notArray : name ≠ "ResizeArray") {types : List Decl}
    (h : types ≠ []) :
    applicationType optional name types = optionType optional (.generic (.named name) types) := by
  obtain ⟨type, types, rfl⟩ := List.exists_cons_of_ne_nil h
  rw [applicationType, if_neg notArray, if_neg (by simp [notUnion])]

theorem functionType_concat (types : List Decl) (result : Decl) :
    functionType (types ++ [result]) =
      .function
        ⟨none, false, none, [], types.map fun type => ⟨"", false, false, type⟩, result⟩ := by
  simp [functionType]

theorem tupleType_of_two_le {types : List Decl} (h : 2 ≤ types.length) :
    tupleType types = .tuple types := by
  match types with
  | [] => rfl
  | [type] => simp at h
  | _ :: _ :: _ => rfl

theorem Decl.phrase_union {alternatives : List Decl} (h : 2 ≤ alternatives.length)
    (optional : Bool) :
    (Decl.union optional alternatives).phrase =
      [.applied ("U" ++ toString alternatives.length) (Decl.phrases alternatives)
        (if optional then 1 else 0)] := by
  have length : (Decl.phrases alternatives).length = alternatives.length := by
    rw [Decl.phrases_eq_map, List.length_map]
  rw [Decl.phrase, unionPhrase_of_two_le (by omega), Phrase.markIf_singleton, length]
  cases optional <;> rfl

theorem Decl.phrase_optional {type : Decl} {f : Factor} (h : type.phrase = [f]) :
    (Decl.union true [type]).phrase = [f.mark] := by
  rw [Decl.phrase, Decl.phrases_eq_map, List.map_singleton, h]
  rfl

/-- A type that is neither a union nor a tuple is a single factor, and with an option
mark behind it the factor stands for the optional type. -/
theorem Decl.Flat.exists_factor_mark {d : Decl} (h : d.Flat) (notUnion : d.isUnion = false)
    (notTuple : d.isTuple = false) :
    ∃ f, d.phrase = [f] ∧ f.mark.type = .union true [f.type] := by
  cases h with
  | named name => exact ⟨_, by rw [Decl.phrase], rfl⟩
  | array element => exact ⟨_, by rw [Decl.phrase], rfl⟩
  | @generic base arguments name notArray notUnionName nonempty =>
      have types : Phrase.types (Decl.phrases arguments) ≠ [] := by
        simpa [Phrase.types_eq_map, Decl.phrases_eq_map] using nonempty
      refine ⟨_, by rw [Decl.phrase], ?_⟩
      rw [Factor.mark, Factor.type, Factor.type,
        applicationType_generic _ notUnionName notArray types,
        applicationType_generic _ notUnionName notArray types]
      rfl
  | @function f params =>
      obtain ⟨emit, isStatic, name, typeParams, ps, type⟩ := f
      exact ⟨_, by rw [Decl.phrase], rfl⟩
  | union => cases notUnion
  | optional => cases notUnion
  | tuple => cases notTuple

theorem Decl.Flat.exists_factor {d : Decl} (h : d.Flat) (notTuple : d.isTuple = false) :
    ∃ f, d.phrase = [f] := by
  cases isUnion : d.isUnion with
  | false =>
      obtain ⟨f, single, -⟩ := h.exists_factor_mark isUnion notTuple
      exact ⟨f, single⟩
  | true =>
      cases h with
      | union optional several => exact ⟨_, Decl.phrase_union several optional⟩
      | optional notUnion noTuple type =>
          obtain ⟨f, single, -⟩ := type.exists_factor_mark notUnion noTuple
          exact ⟨f.mark, Decl.phrase_optional single⟩
      | _ => cases isUnion

theorem Phrase.types_phrases {ds : List Decl} (h : ∀ d ∈ ds, d.phrase.type = d.shown) :
    Phrase.types (Decl.phrases ds) = ds.map Decl.shown := by
  rw [Phrase.types_eq_map, Decl.phrases_eq_map, List.map_map]
  exact List.map_congr_left h

/-- The factors of a tuple stand for its elements. -/
theorem Factor.map_type_flatten {ds : List Decl} (single : ∀ d ∈ ds, ∃ f, d.phrase = [f])
    (h : ∀ d ∈ ds, d.phrase.type = d.shown) :
    (Decl.phrases ds).flatten.map Factor.type = ds.map Decl.shown := by
  induction ds with
  | nil => rfl
  | cons d ds ih =>
      obtain ⟨⟨f, hf⟩, single⟩ := List.forall_mem_cons.mp single
      obtain ⟨hd, hds⟩ := List.forall_mem_cons.mp h
      have first : f.type = d.shown := by rw [← hd, hf]; rfl
      rw [Decl.phrases, hf, List.flatten_cons, List.map_append, List.map_singleton, first,
        ih single hds, List.singleton_append, List.map_cons]

/-- The types of a function, its result at the end. -/
theorem Phrase.types_function {ps : List Param} {result : Decl}
    (params : ∀ p ∈ ps, p.type.phrase.type = p.type.shown)
    (hresult : result.phrase.type = result.shown) :
    Phrase.types (Param.phrases ps ++ [result.phrase]) =
      (ps.map fun p => p.type.shown) ++ [result.shown] := by
  have domain : ps.map (Phrase.type ∘ fun p => p.type.phrase) = ps.map fun p => p.type.shown :=
    List.map_congr_left params
  rw [Phrase.types_eq_map, Param.phrases_eq_map, List.map_append, List.map_map, domain,
    List.map_singleton, hresult]

/-- The phrase of a flat type stands for the type, as far as it is shown. -/
theorem Decl.Flat.type_phrase {d : Decl} (h : d.Flat) : d.phrase.type = d.shown := by
  -- Each kind of type is a kind of factor, but for optional types, which mark the factor
  -- of another type, and tuples, which have one factor for each element.
  induction h with
  | named name =>
      rw [Decl.phrase]
      rfl
  | @array element _ ih =>
      rw [Decl.phrase, Decl.shown, ← ih, Phrase.type, List.map_singleton, Factor.type,
        Phrase.types_eq_map]
      rfl
  | generic name notArray notUnion nonempty _ ih =>
      rw [Decl.phrase, Decl.shown, Decl.allShown_eq_map, Phrase.type, List.map_singleton,
        Factor.type, Phrase.types_phrases ih,
        applicationType_generic _ notUnion notArray (by simpa using nonempty)]
      rfl
  | @function f nonempty _ _ params result =>
      obtain ⟨emit, isStatic, name, typeParams, ps, type⟩ := f
      rw [Decl.phrase, Decl.shown, Param.allShown_eq_map, Phrase.type, List.map_singleton,
        Factor.type, Phrase.types_function params result, functionType_concat, List.map_map]
      rfl
  | union optional several _ ih =>
      have nonempty := List.ne_nil_of_length_pos (Nat.lt_of_lt_of_le Nat.two_pos several)
      rw [Decl.phrase_union several, Decl.shown, Decl.allShown_eq_map, Phrase.type,
        List.map_singleton, Factor.type, Phrase.types_phrases ih,
        applicationType_union _ (isUnionName_union _) (union_ne_array _) (by simpa using nonempty)]
      cases optional <;> rfl
  | optional notUnion notTuple flat ih =>
      obtain ⟨f, single, marked⟩ := flat.exists_factor_mark notUnion notTuple
      rw [Decl.phrase_optional single, Decl.shown, Decl.allShown_eq_map, List.map_singleton, ← ih,
        single]
      exact marked
  | tuple several notTuple flat ih =>
      have single := fun e he => (flat e he).exists_factor (notTuple e he)
      rw [Decl.phrase, Decl.shown, Decl.allShown_eq_map, Phrase.type,
        Factor.map_type_flatten single ih, tupleType_of_two_le (by simpa using several)]

theorem Decl.Flat.shown_eq_of_typeText_eq {s t : Decl} (hs : s.Flat) (ht : t.Flat)
    (same : s.typeText = t.typeText) : s.shown = t.shown := by
  have phrases := (hs.phrased.typeText_eq_iff ht.phrased).mp same
  rw [← hs.type_phrase, phrases, ht.type_phrase]

/-- Flat types are printed alike exactly if they are the same, but for what is not
shown of functions. -/
theorem Decl.typeText_eq_iff_shown_eq {s t : Decl} (hs : s.Flat) (ht : t.Flat) :
    s.typeText = t.typeText ↔ s.shown = t.shown := by
  refine ⟨hs.shown_eq_of_typeText_eq ht, ?_⟩
  intro same
  rw [← Decl.typeText_shown s, same, Decl.typeText_shown]

/-- An optional function from a tuple to a union, with all that is not shown of a
function. -/
def handlerType (emit name : Option String) (isStatic : Bool) (param : String) : Decl :=
  .union true [.function ⟨emit, isStatic, name, [.named "T"],
    [⟨param, isStatic, isStatic, .tuple [.named "string", .union true [.named "float"]]⟩],
    .generic (.named "Promise") [.union false [.array (.named "'T"), .named "U2"]]⟩]

theorem handlerType_flat (emit name : Option String) (isStatic : Bool) (param : String) :
    (handlerType emit name isStatic param).Flat := by
  have domain : (Decl.tuple [.named "string", .union true [.named "float"]]).Flat := by
    refine .tuple (by decide) (by simp [Decl.isTuple]) ?_
    simp only [List.forall_mem_cons]
    exact ⟨.named (by decide), .optional rfl rfl (.named (by decide)), List.forall_mem_nil _⟩
  have result : (Decl.union false [.array (.named "'T"), .named "U2"]).Flat := by
    refine .union false (by decide) ?_
    simp only [List.forall_mem_cons]
    exact ⟨.array (.named (by decide)), .named (by decide), List.forall_mem_nil _⟩
  refine .optional rfl rfl (.function (by simp) ?_ ?_)
  · simpa using domain
  · exact .generic (by decide) (by decide) (by decide) (by simp) (by simpa using result)

theorem handlerType_told_by_text :
    (handlerType (some "$0") (some "on") true "event").Flat ∧
      (handlerType none none false "e").Flat ∧
      handlerType (some "$0") (some "on") true "event" ≠ handlerType none none false "e" ∧
      (handlerType (some "$0") (some "on") true "event").typeText =
        "(string * float option -> Promise<U2<ResizeArray<'T>, U2>>) option" ∧
      (handlerType (some "$0") (some "on") true "event").shown =
        (handlerType none none false "e").shown := by
  have flat := handlerType_flat (some "$0") (some "on") true "event"
  have flat' := handlerType_flat none none false "e"
  refine ⟨flat, flat', by decide, by decide +kernel, ?_⟩
  exact (Decl.typeText_eq_iff_shown_eq flat flat').mp (by decide +kernel)

/-! ## Groups are lost -/

/-- Types built from names by tuples and options, in any nesting. -/
inductive Decl.Grouped : Decl -> Prop
  | named {name : String} : IsTypeName name -> (Decl.named name).Grouped
  | optional {type : Decl} : type.isUnion = false -> type.Grouped ->
    (Decl.union true [type]).Grouped
  | tuple {elements : List Decl} : 2 ≤ elements.length -> (∀ e ∈ elements, e.Grouped) ->
    (Decl.tuple elements).Grouped

mutual

/-- The names in a type from left to right, each with the number of options that end
at it. -/
def Decl.markedNames : Decl -> List (String × Nat)
  | .named name => [(name, 0)]
  | .union optional alternatives =>
    if optional then
      mapLast (fun (name, marks) => (name, marks + 1)) (Decl.allMarkedNames alternatives)
    else Decl.allMarkedNames alternatives
  | .tuple elements => Decl.allMarkedNames elements
  | _ => []

def Decl.allMarkedNames : List Decl -> List (String × Nat)
  | [] => []
  | d :: ds => d.markedNames ++ Decl.allMarkedNames ds

end

theorem Decl.allMarkedNames_eq_flatMap (ds : List Decl) :
    Decl.allMarkedNames ds = ds.flatMap Decl.markedNames := by
  induction ds with
  | nil => rfl
  | cons d ds ih => rw [Decl.allMarkedNames, ih, List.flatMap_cons]

def nameFactor : String × Nat -> Factor
  | (name, marks) => .applied name [] marks

theorem nameFactor_injective {a b : String × Nat} (h : nameFactor a = nameFactor b) : a = b := by
  obtain ⟨name, marks⟩ := a
  cases h
  rfl

theorem mapLast_map {α β : Type} {f : β -> β} {g : α -> β} {k : α -> α}
    (h : ∀ a, f (g a) = g (k a)) (as : List α) :
    mapLast f (as.map g) = (mapLast k as).map g := by
  rw [mapLast, mapLast, List.map_append, List.map_dropLast, List.getLast?_map]
  cases as.getLast? with
  | none => rfl
  | some last => simp [h]

/-- The phrase of a type is the row of its names. -/
theorem Decl.Grouped.phrase_eq {d : Decl} (h : d.Grouped) :
    d.phrase = d.markedNames.map nameFactor := by
  induction h with
  | named name =>
      rw [Decl.phrase]
      rfl
  | @optional type notUnion _ ih =>
      have inside : Decl.allMarkedNames [type] = type.markedNames := by
        rw [Decl.allMarkedNames_eq_flatMap, List.flatMap_singleton]
      rw [Decl.phrase, Decl.phrases_eq_map, List.map_singleton, unionPhrase, ih, Decl.markedNames,
        inside, Phrase.markIf, if_pos rfl, if_pos rfl]
      refine mapLast_map ?_ type.markedNames
      exact fun name => rfl
  | @tuple elements several _ ih =>
      have phrases : Decl.phrases elements =
          elements.map fun e => e.markedNames.map nameFactor := by
        rw [Decl.phrases_eq_map]
        exact List.map_congr_left ih
      rw [Decl.phrase, phrases, Decl.markedNames, Decl.allMarkedNames_eq_flatMap, List.map_flatMap,
        List.flatMap_def]

theorem Decl.Grouped.phrased {d : Decl} (h : d.Grouped) : d.Phrased := by
  induction h with
  | named name => exact .named name
  | optional _ _ type => exact .union (by simp) (by simpa using type)
  | tuple several _ elements =>
      exact .tuple (List.ne_nil_of_length_pos (by omega)) elements

/-- There are no functions in such a type, so all of it is shown. -/
theorem Decl.Grouped.shown_eq {d : Decl} (h : d.Grouped) : d.shown = d := by
  induction h with
  | named name => rfl
  | optional _ _ ih => rw [Decl.shown, Decl.allShown_eq_map, List.map_singleton, ih]
  | @tuple elements _ _ ih =>
      have same : elements.map Decl.shown = elements.map id := List.map_congr_left ih
      rw [Decl.shown, Decl.allShown_eq_map, same, List.map_id]

/-- Types built by tuples and options are printed alike exactly if they have the same
names with the same option marks, whatever their groups are. Among flat types there
is nothing to lose, and the text tells the type. -/
theorem Decl.typeText_eq_iff_markedNames_eq {s t : Decl} (hs : s.Grouped) (ht : t.Grouped) :
    (s.typeText = t.typeText ↔ s.markedNames = t.markedNames) ∧
      (s.Flat -> t.Flat -> (s.typeText = t.typeText ↔ s = t)) := by
  constructor
  · rw [hs.phrased.typeText_eq_iff ht.phrased, hs.phrase_eq, ht.phrase_eq]
    constructor
    · exact fun same => (List.map_inj_right fun _ _ => nameFactor_injective).mp same
    · exact fun same => by rw [same]
  · intro flat flat'
    constructor
    · intro same
      rw [← hs.shown_eq, ← ht.shown_eq]
      exact flat.shown_eq_of_typeText_eq flat' same
    · exact fun same => by rw [same]

def nestedTuple : Decl :=
  .tuple [.named "string", .tuple [.named "float", .named "bool"]]

def flatTuple : Decl :=
  .tuple [.named "string", .named "float", .named "bool"]

def optionalTuple : Decl :=
  .union true [.tuple [.named "string", .named "float"]]

def tupleOfOptional : Decl :=
  .tuple [.named "string", .union true [.named "float"]]

theorem nestedTuple_grouped : nestedTuple.Grouped ∧ flatTuple.Grouped := by
  have pair : (Decl.tuple [.named "float", .named "bool"]).Grouped := by
    refine .tuple (by decide) ?_
    simp only [List.forall_mem_cons]
    exact ⟨.named (by decide), .named (by decide), nofun⟩
  refine ⟨.tuple (by decide) ?_, .tuple (by decide) ?_⟩
  · simp only [List.forall_mem_cons]
    exact ⟨.named (by decide), pair, nofun⟩
  · simp only [List.forall_mem_cons]
    exact ⟨.named (by decide), .named (by decide), .named (by decide), nofun⟩

theorem optionalTuple_grouped : optionalTuple.Grouped ∧ tupleOfOptional.Grouped := by
  refine ⟨.optional rfl (.tuple (by decide) ?_), .tuple (by decide) ?_⟩
  · simp only [List.forall_mem_cons]
    exact ⟨.named (by decide), .named (by decide), nofun⟩
  · simp only [List.forall_mem_cons]
    exact ⟨.named (by decide), .optional rfl (.named (by decide)), nofun⟩

theorem optionalTuple_printed_alike :
    optionalTuple.Grouped ∧ tupleOfOptional.Grouped ∧
      optionalTuple.markedNames = [("string", 0), ("float", 1)] ∧
      optionalTuple.typeText = tupleOfOptional.typeText := by
  refine ⟨optionalTuple_grouped.1, optionalTuple_grouped.2, rfl, ?_⟩
  exact (Decl.typeText_eq_iff_markedNames_eq optionalTuple_grouped.1
    optionalTuple_grouped.2).1.mpr rfl

/-- A tuple in a tuple and an optional tuple are printed like types that are not
grouped in this way. -/
theorem groups_not_printed :
    (nestedTuple.Grouped ∧ flatTuple.Grouped ∧ nestedTuple ≠ flatTuple ∧
      nestedTuple.typeText = flatTuple.typeText) ∧
    (optionalTuple.Grouped ∧ tupleOfOptional.Grouped ∧ optionalTuple ≠ tupleOfOptional ∧
      optionalTuple.typeText = tupleOfOptional.typeText) :=
  ⟨⟨nestedTuple_grouped.1, nestedTuple_grouped.2, by decide, by decide +kernel⟩,
    optionalTuple_grouped.1, optionalTuple_grouped.2, by decide, by decide +kernel⟩

end Bindgen
