import Bindgen.Read.Type
import Bindgen.Proofs.Rewriting

/-! # Types do not depend on positions

A tree without its positions still has all its types, fields and texts. A type
is read from it to the same value, whatever file the tree is from: positions and
paths only show in events and errors.
-/

namespace Bindgen

namespace Traced

variable {ω ε α β γ : Type}

def value? (x : Traced ω ε α) : Option α :=
  x.outcome.toOption

@[simp] theorem value?_done (a : α) : (done a : Traced ω ε α).value? = some a := rfl

theorem value?_eq_some_iff {x : Traced ω ε α} {a : α} :
    x.value? = some a ↔ x.outcome = .ok a := by
  obtain ⟨events, outcome⟩ := x
  cases outcome <;> simp [value?, Except.toOption]

theorem value?_bind (x : Traced ω ε α) (f : α -> Traced ω ε β) :
    (x >>= f).value? = x.value?.bind fun a => (f a).value? := by
  obtain ⟨events, outcome⟩ := x
  cases outcome <;> rfl

/-- Values of one list that are those of another, element by element, have the
same value together. -/
theorem value?_traverse_map {f : α -> Traced ω ε γ} {g : β -> Traced ω ε γ} {h : α -> β}
    {as : List α} (same : ∀ a ∈ as, (g (h a)).value? = (f a).value?) :
    (traverse g (as.map h)).value? = (traverse f as).value? := by
  induction as with
  | nil => rfl
  | cons a as ih =>
      obtain ⟨first, rest⟩ := List.forall_mem_cons.mp same
      rw [List.map_cons, traverse, traverse, value?_bind, value?_bind, first]
      congr 1
      funext c
      rw [value?_bind, value?_bind, ih rest]

end Traced

namespace Syntax

mutual

/-- The tree with everything but its positions. -/
def Node.unplaced : Node -> Node
  | ⟨type, named, field, extent, children⟩ =>
    ⟨type, named, field, ⟨0, 0, 0, extent.text⟩, Node.unplacedAll children⟩

def Node.unplacedAll : List Node -> List Node
  | [] => []
  | n :: ns => n.unplaced :: Node.unplacedAll ns

end

theorem Node.unplacedAll_eq_map (ns : List Node) : Node.unplacedAll ns = ns.map Node.unplaced := by
  induction ns with
  | nil => rfl
  | cons n ns ih => rw [Node.unplacedAll, ih, List.map_cons]

namespace Cursor

def unplaced (c : Cursor) : Cursor :=
  ⟨c.parent, c.node.unplaced⟩

section

variable (c : Cursor)

@[simp] theorem type_unplaced : c.unplaced.type = c.type := by
  obtain ⟨parent, type, named, field, extent, children⟩ := c
  rfl

@[simp] theorem text_unplaced : c.unplaced.text = c.text := by
  obtain ⟨parent, type, named, field, extent, children⟩ := c
  rfl

@[simp] theorem inHeritageClause_unplaced : c.unplaced.inHeritageClause = c.inHeritageClause := rfl

@[simp] theorem named_node_unplaced : c.unplaced.node.named = c.node.named := by
  obtain ⟨parent, type, named, field, extent, children⟩ := c
  rfl

@[simp] theorem field_node_unplaced : c.unplaced.node.field = c.node.field := by
  obtain ⟨parent, type, named, field, extent, children⟩ := c
  rfl

@[simp] theorem children_unplaced : c.unplaced.children = c.children.map unplaced := by
  obtain ⟨parent, type, named, field, extent, children⟩ := c
  simp [unplaced, Cursor.children, Node.unplaced, Node.unplacedAll_eq_map]

@[simp] theorem named_unplaced : c.unplaced.named = c.named.map unplaced := by
  simp only [named, children_unplaced, List.filter_map, Function.comp_def, named_node_unplaced,
    type_unplaced]

@[simp] theorem field?_unplaced (name : String) :
    c.unplaced.field? name = (c.field? name).map unplaced := by
  simp only [field?, children_unplaced, List.find?_map, Function.comp_def, field_node_unplaced]

@[simp] theorem hasToken_unplaced (token : String) :
    c.unplaced.hasToken token = c.hasToken token := by
  simp only [hasToken, children_unplaced, List.any_map, Function.comp_def, type_unplaced]

@[simp] theorem fieldText_unplaced (name : String) :
    c.unplaced.fieldText name = c.fieldText name := by
  simp only [fieldText, field?_unplaced, Option.map_map, Function.comp_def, text_unplaced]

@[simp] theorem fieldNamed_unplaced (name : String) :
    c.unplaced.fieldNamed name = (c.fieldNamed name).map unplaced := by
  cases field : c.field? name <;> simp [fieldNamed, field]

theorem isMappedObject_unplaced : c.unplaced.isMappedObject = c.isMappedObject := by
  unfold isMappedObject
  rw [named_unplaced]
  match c.named with
  | [] => rfl
  | [member] => simp [Function.comp_def]
  | _ :: _ :: _ => rfl

@[simp] theorem ownKind_unplaced : c.unplaced.ownKind = c.ownKind := by
  simp only [ownKind, methodKind, exportKind, type_unplaced, text_unplaced, hasToken_unplaced,
    fieldText_unplaced, isMappedObject_unplaced]

@[simp] theorem kind_unplaced : c.unplaced.kind = c.kind := by
  simp only [kind, type_unplaced, inHeritageClause_unplaced, ownKind_unplaced]

@[simp] theorem isNullish_unplaced : c.unplaced.isNullish = c.isNullish := by
  simp only [isNullish, type_unplaced, text_unplaced]

end

theorem unwrapType_unplaced (c : Cursor) : c.unplaced.unwrapType = c.unwrapType.unplaced := by
  fun_induction unwrapType c with
  | case1 c annotation none =>
      rw [unwrapType, if_pos (by rwa [type_unplaced])]
      split
      · rfl
      · simp_all
  | case2 c annotation inner last ih =>
      rw [unwrapType, if_pos (by rwa [type_unplaced])]
      split
      · simp_all
      · simp_all
  | case3 c plain => rw [unwrapType, if_neg (by rwa [type_unplaced])]

theorem flattenUnion_unplaced (c : Cursor) :
    c.unplaced.flattenUnion = c.flattenUnion.map unplaced := by
  rw [flattenUnion_eq, flattenUnion_eq, named_unplaced, List.flatMap_map, List.map_flatMap,
    List.flatMap_def, List.flatMap_def]
  congr 1
  refine List.map_congr_left fun child hchild => ?_
  have := size_lt_of_mem_named hchild
  rw [type_unplaced, apply_ite (List.map unplaced), flattenUnion_unplaced child]
  rfl
termination_by c.size

end Cursor

end Syntax

open Syntax

/-! ## Readers without bounds

The smaller readers, said without the proofs that each step leads to a smaller
place. -/

section

variable (path : String) (c : Cursor)

theorem readParam_eq :
    readParam path c =
      (readField path c "type" .obj >>= fun type =>
        .done ⟨paramName c, c.type == "optional_parameter",
          c.type == "rest_parameter" || isRestPattern (paramPattern? c), type⟩) := by
  rw [readParam, readField]
  split <;> rename_i field <;> rw [field]

theorem readParams_eq : readParams path c = Traced.traverse (readParam path) (parameters c) := by
  rw [readParams, Traced.traverseMem_eq_traverse]

theorem readResult_eq :
    readResult path c = ((result? c).map (readType path)).getD (.done .unit) := by
  rw [readResult]
  split <;> rename_i result <;> rw [result] <;> rfl

theorem readTupleElement_eq :
    readTupleElement path c =
      if c.type == "optional_type" || c.type == "rest_type" then
        (c.named.head?.map (readType path)).getD (.done .todo)
      else if isTupleMember c.type then readField path c "type" .obj
      else readType path c := by
  rw [readTupleElement, readField]
  split
  · split <;> rename_i named <;> rw [named] <;> rfl
  · split
    · split <;> rename_i field <;> rw [field]
    · rfl

/-- Read a union: its alternatives in order without repetitions, and whether one
of them is `null` or `undefined`. -/
def readUnion : Reading Decl := do
  let types ← Traced.traverse (readType path) (alternatives c)
  .done (.union (c.flattenUnion.any Cursor.isNullish) (Decl.dedupe types))

variable {c}

theorem readBareType_of_unionType (kind : c.kind = .unionType) :
    readBareType path c = readUnion path c := by
  rw [readBareType, kind]
  simp only [Traced.traverseMem_eq_traverse, readUnion]

end

section

variable (c : Cursor)

theorem readLiteral_unplaced : readLiteral c.unplaced = readLiteral c := by
  unfold readLiteral
  rw [Cursor.named_unplaced, List.head?_map]
  cases c.named.head? <;> simp

theorem readTypeParams_unplaced : readTypeParams c.unplaced = readTypeParams c := by
  simp only [readTypeParams, Cursor.fieldNamed_unplaced, List.filter_map, List.map_map,
    Function.comp_def, Cursor.type_unplaced, Cursor.field?_unplaced, Cursor.named_unplaced,
    List.head?_map]
  refine List.map_congr_left fun p _ => ?_
  cases p.field? "name" <;> cases p.named.head? <;> simp

theorem paramPattern?_unplaced :
    paramPattern? c.unplaced = (paramPattern? c).map Cursor.unplaced := by
  simp only [paramPattern?, Cursor.field?_unplaced, Cursor.named_unplaced, List.find?_map,
    Function.comp_def, Cursor.type_unplaced]
  cases c.field? "pattern" <;> cases c.field? "name" <;> simp

theorem isRestPattern_unplaced (pattern : Option Cursor) :
    isRestPattern (pattern.map Cursor.unplaced) = isRestPattern pattern := by
  cases pattern <;> simp [isRestPattern]

theorem patternText_unplaced (pattern : Option Cursor) :
    patternText (pattern.map Cursor.unplaced) = patternText pattern := by
  cases pattern with
  | none => rfl
  | some p =>
      simp only [patternText, Option.map_some, Cursor.type_unplaced, Cursor.named_unplaced,
        List.head?_map, Cursor.text_unplaced]
      cases p.named.head? <;> simp

theorem paramName_unplaced : paramName c.unplaced = paramName c := by
  rw [paramName, paramPattern?_unplaced, patternText_unplaced, paramName]

theorem parameters_unplaced : parameters c.unplaced = (parameters c).map Cursor.unplaced := by
  simp only [parameters, Cursor.fieldNamed_unplaced, List.filter_map, Function.comp_def,
    Cursor.type_unplaced]

theorem result?_unplaced : result? c.unplaced = (result? c).map Cursor.unplaced := by
  simp only [result?, Cursor.field?_unplaced]
  cases c.field? "return_type" <;> simp

theorem alternatives_unplaced :
    alternatives c.unplaced = (alternatives c).map Cursor.unplaced := by
  simp only [alternatives, Cursor.flattenUnion_unplaced, List.filter_map, Function.comp_def,
    Cursor.isNullish_unplaced]

end

/-! ## The readers of types

As for the form of what is read, each reader is followed under the assumption
that all types of smaller places are read alike. -/

section

variable {path other : String} {c : Cursor} {n : Nat}

theorem value?_readOtherType_unplaced :
    (readOtherType path c.unplaced).value? = (readOtherType other c).value? := by
  unfold readOtherType
  rw [Cursor.kind_unplaced]
  split
  · rfl
  · split <;> rfl

theorem value?_readPlainReference_unplaced :
    (readPlainReference path c.unplaced).value? = (readPlainReference other c).value? := by
  unfold readPlainReference
  rw [Cursor.text_unplaced]
  split <;> rfl

variable
  (ih : ∀ p : Cursor, p.size < n ->
    (readType path p.unplaced).value? = (readType other p).value?)

include ih

theorem value?_readField_unplaced (hn : c.size ≤ n) (name : String) (default : Decl) :
    (readField path c.unplaced name default).value? = (readField other c name default).value? := by
  unfold readField
  rw [Cursor.field?_unplaced]
  cases field : c.field? name with
  | none => rfl
  | some type =>
      have := Cursor.size_lt_of_field? field
      exact ih type (by omega)

theorem value?_readParams_unplaced (hn : c.size ≤ n) :
    (readParams path c.unplaced).value? = (readParams other c).value? := by
  rw [readParams_eq, readParams_eq, parameters_unplaced]
  refine Traced.value?_traverse_map fun p hp => ?_
  have := size_lt_of_mem_parameters hp
  rw [readParam_eq, readParam_eq, Traced.value?_bind, Traced.value?_bind,
    value?_readField_unplaced ih (by omega), paramName_unplaced, paramPattern?_unplaced,
    isRestPattern_unplaced, Cursor.type_unplaced]

theorem value?_readResult_unplaced (hn : c.size ≤ n) :
    (readResult path c.unplaced).value? = (readResult other c).value? := by
  rw [readResult_eq, readResult_eq, result?_unplaced]
  cases result : result? c with
  | none => rfl
  | some type =>
      have := size_lt_of_result? result
      exact ih type (by omega)

theorem value?_readTupleElement_unplaced (hn : c.size < n) :
    (readTupleElement path c.unplaced).value? = (readTupleElement other c).value? := by
  rw [readTupleElement_eq, readTupleElement_eq, Cursor.type_unplaced, Cursor.named_unplaced]
  split
  · cases named : c.named with
    | nil => rfl
    | cons inner rest =>
        have := Cursor.size_lt_of_named_eq_cons named
        exact ih inner (by omega)
  · split
    · exact value?_readField_unplaced ih (by omega) "type" .obj
    · exact ih c hn

theorem value?_readUnion_unplaced (hn : c.size ≤ n) :
    (readUnion path c.unplaced).value? = (readUnion other c).value? := by
  have types : (Traced.traverse (readType path) (alternatives c.unplaced)).value? =
      (Traced.traverse (readType other) (alternatives c)).value? := by
    rw [alternatives_unplaced]
    refine Traced.value?_traverse_map fun a ha => ?_
    have := size_lt_of_mem_alternatives ha
    exact ih a (by omega)
  rw [readUnion, readUnion, Traced.value?_bind, Traced.value?_bind, types,
    Cursor.flattenUnion_unplaced, List.any_map]
  simp only [Function.comp_def, Cursor.isNullish_unplaced]

theorem value?_readBareType_unplaced (hn : c.size ≤ n) :
    (readBareType path c.unplaced).value? = (readBareType other c).value? := by
  rw [readBareType, readBareType, c.kind_unplaced]
  simp only [Traced.traverseMem_eq_traverse]
  split
  case h_1 =>
      rw [Cursor.type_unplaced, Cursor.fieldText_unplaced]
      split
      · split
        · rfl
        · rw [Cursor.fieldNamed_unplaced, Traced.value?_bind, Traced.value?_bind,
            Traced.value?_traverse_map]
          intro a ha
          have := Cursor.size_lt_of_mem_fieldNamed ha
          exact ih a (by omega)
      · exact value?_readPlainReference_unplaced
  case h_2 =>
      rw [Cursor.named_unplaced]
      cases named : c.named with
      | nil => rfl
      | cons element rest =>
          have := Cursor.size_lt_of_named_eq_cons named
          rw [List.map_cons]
          simp only [Traced.value?_bind, ih element (by omega), Traced.value?_done]
  case h_3 => exact value?_readUnion_unplaced ih hn
  case h_4 =>
      rw [Cursor.named_unplaced, Traced.value?_bind, Traced.value?_bind,
        Traced.value?_traverse_map]
      intro e he
      have := Cursor.size_lt_of_mem_named he
      exact value?_readTupleElement_unplaced ih (by omega)
  case h_5 =>
      simp only [Traced.value?_bind, value?_readParams_unplaced ih hn,
        value?_readResult_unplaced ih hn, readTypeParams_unplaced, Traced.value?_done]
  case h_6 => rw [readLiteral_unplaced]
  case h_7 => exact value?_readOtherType_unplaced

end

/-- Positions and paths have no part in what type is read. -/
theorem value?_readType_unplaced (path other : String) (c : Cursor) :
    (readType path c.unplaced).value? = (readType other c).value? := by
  have smaller : ∀ p : Cursor, p.size < c.size ->
      (readType path p.unplaced).value? = (readType other p).value? :=
    fun p _ => value?_readType_unplaced path other p
  rw [readType, readType, Cursor.unwrapType_unplaced]
  exact value?_readBareType_unplaced smaller c.size_unwrapType_le
termination_by c.size

end Bindgen
