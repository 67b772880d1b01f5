import Bindgen.Proofs.Faults
import Bindgen.Proofs.Reading.Accessors
import Bindgen.Proofs.Reading.Statements
import Bindgen.Proofs.Reading.Visits

/-! # The log of the readers

At each visit a reader does one thing of its own: nothing, a note in the log, or giving up.
Reading a file is doing these things for its visits, one after the other, and putting a
value together. So the log of a file is what its visits note, up to the first that gives up.
-/

namespace Bindgen

open Syntax

/-! ## What is done at a visit -/

def otherTypeAct (path : String) (c : Cursor) : Reading Unit :=
  if (plainType? c.kind).isSome then .done ()
  else if isTypeAsObj c.kind then .note (.typeAsObj c.kind.name (.ofCursor path c))
  else noteUnsupported path "type" c

/-- What is done at a type without annotations around it. -/
def typeAct (path : String) (c : Cursor) : Reading Unit :=
  match c.kind with
  | .typeReference =>
    if c.type == "generic_type" then
      if (c.fieldText "name").isEmpty then .fail (.unnamedGeneric (.ofCursor path c) c.text)
      else .done ()
    else if (Text.trim c.text).toList.isEmpty then .fail (.unnamedReference (.ofCursor path c))
    else .done ()
  | .arrayType => if c.named.isEmpty then noteUnsupported path "array" c else .done ()
  | .unionType => .done ()
  | .tupleType => .done ()
  | .functionType => .done ()
  | .literalType => .done ()
  | _ => otherTypeAct path c

def memberAct (path : String) (c : Cursor) : Reading Unit :=
  match c.kind with
  | .indexSignature =>
    if (c.field? "name").isNone then .note (.mappedClause (.ofCursor path c)) else .done ()
  | .methodSignature => .done ()
  | .methodDeclaration => .done ()
  | .propertySignature => .done ()
  | .propertyDeclaration => .done ()
  | .callSignature => .done ()
  | .constructSignature => .done ()
  | .constructor => .done ()
  | .getAccessor => .done ()
  | .setAccessor => .done ()
  | _ => noteUnsupported path "member" c

def variableAct (path : String) (c : Cursor) : Reading Unit :=
  match declarators c with
  | [] => noteUnsupported path "variable" c
  | [_] => .done ()
  | _ => .note (.extraBindings (.ofCursor path c))

def statementAct (path : String) (c : Cursor) : Reading Unit :=
  if isTrivia c then .done ()
  else
    match c.kind with
    | .moduleDeclaration => .done ()
    | .interfaceDeclaration => .done ()
    | .classDeclaration => .done ()
    | .enumDeclaration => .done ()
    | .typeAliasDeclaration => if (aliasValue? c).isNone then .fail .emptyAlias else .done ()
    | .variableStatement => variableAct path c
    | .functionDeclaration => .done ()
    | .exportAssignment => .note (.exportAssignment (.ofCursor path c))
    | .importDeclaration => .note (.droppedStatement c.kind.name (.ofCursor path c))
    | .exportDeclaration => .note (.droppedStatement c.kind.name (.ofCursor path c))
    | .namespaceExportDeclaration => .note (.droppedStatement c.kind.name (.ofCursor path c))
    | _ => noteUnsupported path "statement" c

/-- What is done at a visit, apart from the visits inside it. -/
def Visit.act (path : String) : Visit -> Reading Unit
  | .type c => typeAct path c.unwrapType
  | .element _ => .done ()
  | .heritage c =>
    if (heritageName c).isEmpty then .fail (.unnamedHeritage (.ofCursor path c)) else .done ()
  | .member c => memberAct path c
  | .statement c => statementAct path c.unwrapStatement.1

/-! ## Readers that make visits -/

section

variable {α β : Type}

/-- Apart from its value, the reader makes the visits and those inside them. -/
def Walks (path : String) (x : Reading α) (visits : List Visit) : Prop :=
  (fun _ => ()) <$> x = Traced.each (Visit.act path) (visits.flatMap Visit.walk)

/-- Apart from its value, the reader does one thing first and then makes the visits. -/
def Opens (path : String) (x : Reading α) (first : Reading Unit) (visits : List Visit) : Prop :=
  (fun _ => ()) <$> x = first >>= fun _ => Traced.each (Visit.act path) (visits.flatMap Visit.walk)

variable {path : String} {x : Reading α} {visits more : List Visit}

theorem walks_done (path : String) (a : α) : Walks path (.done a) [] := rfl

theorem Walks.bind_of_ok {f : α -> Reading β} (hx : Walks path x visits)
    (hf : ∀ a, x.outcome = .ok a -> Walks path (f a) more) :
    Walks path (x >>= f) (visits ++ more) := by
  unfold Walks at *
  rw [List.flatMap_append, Traced.each_append, ← hx, bind_map_left, map_bind]
  obtain ⟨events, outcome⟩ := x
  cases outcome with
  | error cause => rfl
  | ok a => exact congrArg (fun y => Traced.andThen ⟨events, .ok a⟩ fun _ => y) (hf a rfl)

theorem Walks.bind {f : α -> Reading β} (hx : Walks path x visits)
    (hf : ∀ a, Walks path (f a) more) : Walks path (x >>= f) (visits ++ more) :=
  hx.bind_of_ok fun a _ => hf a

theorem Walks.map (f : α -> β) (hx : Walks path x visits) : Walks path (f <$> x) visits := by
  unfold Walks at *
  rw [← hx, ← comp_map]

theorem Walks.bind_done (f : α -> β) (hx : Walks path x visits) :
    Walks path (x >>= fun a => .done (f a)) visits :=
  hx.map f

theorem walks_traverse {f : α -> Reading β} {inside : α -> List Visit} {as : List α}
    (h : ∀ a ∈ as, Walks path (f a) (inside a)) :
    Walks path (Traced.traverse f as) (as.flatMap inside) := by
  induction as with
  | nil => exact walks_done path []
  | cons a as ih =>
      obtain ⟨first, rest⟩ := List.forall_mem_cons.mp h
      exact first.bind fun b => (ih rest).bind_done (b :: ·)

theorem walks_traverse_map {f : α -> Reading β} {visit : α -> Visit} {as : List α}
    (h : ∀ a ∈ as, Walks path (f a) [visit a]) :
    Walks path (Traced.traverse f as) (as.map visit) := by
  rw [List.map_eq_flatMap]
  exact walks_traverse h

/-- A reader with a value has given up at none of its visits. -/
theorem Walks.cause?_eq_none {a : α} (h : Walks path x visits) (value : x.value? = some a)
    {v : Visit} (hv : v ∈ visits.flatMap Visit.walk) : (v.act path).cause? = none := by
  have cause : x.cause? = none := by
    rw [Traced.cause?, Traced.value?_eq_some_iff.mp value]
  have each := congrArg Traced.cause? h
  rw [Traced.cause?_map, cause, Traced.cause?_each] at each
  exact List.findSome?_eq_none_iff.mp each.symm v hv

theorem Walks.opens (h : Walks path x visits) : Opens path x (.done ()) visits := h

theorem Walks.opens_note (event : Event) (h : Walks path x visits) :
    Opens path (.note event >>= fun _ => x) (.note event) visits := by
  unfold Opens
  rw [map_bind, h]

theorem Opens.map {first : Reading Unit} (f : α -> β) (h : Opens path x first visits) :
    Opens path (f <$> x) first visits := by
  unfold Opens at *
  rw [← h, ← comp_map]

theorem opens_leaf {first : Reading Unit} (h : (fun _ => ()) <$> x = first) :
    Opens path x first [] := by
  unfold Opens
  rw [h]
  exact (bind_pure first).symm

/-- Giving up at a visit leaves out those inside it. -/
theorem opens_fail (path : String) (cause : ReadError) (visits : List Visit) :
    Opens path (.fail cause : Reading α) (.fail cause) visits := rfl

/-- A reader that does what is done at a visit and then makes those inside it makes that
visit. -/
theorem Opens.walks {v : Visit} (h : Opens path x (v.act path) v.parts) : Walks path x [v] := by
  unfold Walks
  rw [List.flatMap_singleton, Visit.walk_eq, Traced.each]
  exact h

end

/-! ## The readers of types -/

section

variable (path : String) {c : Cursor} {n : Nat}

theorem opens_otherType : Opens path (readOtherType path c) (otherTypeAct path c) [] := by
  refine opens_leaf ?_
  rw [readOtherType, otherTypeAct]
  cases plainType? c.kind with
  | some type => rfl
  | none => cases isTypeAsObj c.kind <;> rfl

theorem opens_plainReference (kind : c.kind = .typeReference)
    (plain : ¬(c.type == "generic_type") = true) :
    Opens path (readPlainReference path c) (typeAct path c) [] := by
  refine opens_leaf ?_
  simp only [typeAct, kind, if_neg plain, readPlainReference]
  cases (Text.trim c.text).toList <;> rfl

variable (ih : ∀ p : Cursor, p.size < n -> Walks path (readType path p) [.type p])

include ih

theorem walks_smallerField (hn : c.size ≤ n) (name : String) (default : Decl) :
    Walks path (readField path c name default) ((c.field? name).toList.map .type) := by
  unfold readField
  cases field : c.field? name with
  | none => exact walks_done path default
  | some type =>
      have := Cursor.size_lt_of_field? field
      exact ih type (by omega)

theorem walks_smallerParams (hn : c.size ≤ n) :
    Walks path (readParams path c) ((paramTypes c).map .type) := by
  rw [readParams_eq, map_paramTypes]
  refine walks_traverse fun p hp => ?_
  have := size_lt_of_mem_parameters hp
  rw [readParam_eq]
  exact (walks_smallerField path ih (by omega) "type" .obj).bind_done _

theorem walks_smallerResult (hn : c.size ≤ n) :
    Walks path (readResult path c) ((result? c).toList.map .type) := by
  rw [readResult_eq]
  cases result : result? c with
  | none => exact walks_done path Decl.unit
  | some type =>
      have := size_lt_of_result? result
      exact ih type (by omega)

theorem walks_tupleElement (hn : c.size < n) :
    Walks path (readTupleElement path c) [.element c] := by
  refine Opens.walks (Walks.opens ?_)
  rw [readTupleElement_eq, Visit.parts, elementType?]
  split
  · cases named : c.named with
    | nil => exact walks_done path Decl.todo
    | cons inner rest =>
        have := Cursor.size_lt_of_named_eq_cons named
        exact ih inner (by omega)
  · split
    · exact walks_smallerField path ih (Nat.le_of_lt hn) "type" .obj
    · exact ih c hn

theorem opens_bareType (hn : c.size ≤ n) :
    Opens path (readBareType path c) (typeAct path c) (bareTypeParts c) := by
  rw [readBareType]
  split
  case h_1 kind =>
      split
      case isTrue generic =>
          simp only [typeAct, bareTypeParts, kind, if_pos generic]
          split
          case isTrue => exact opens_fail path _ _
          case isFalse =>
              rw [Traced.traverseMem_eq_traverse]
              refine ((walks_traverse_map fun a ha => ?_).bind_done _).opens
              have := Cursor.size_lt_of_mem_fieldNamed ha
              exact ih a (by omega)
      case isFalse plain =>
          have none : bareTypeParts c = [] := by simp only [bareTypeParts, kind, if_neg plain]
          rw [none]
          exact opens_plainReference path kind plain
  case h_2 kind =>
      simp only [typeAct, bareTypeParts, kind]
      cases named : c.named with
      | nil => exact opens_leaf rfl
      | cons element rest =>
          have := Cursor.size_lt_of_named_eq_cons named
          exact ((ih element (by omega)).bind_done _).opens
  case h_3 kind =>
      simp only [typeAct, bareTypeParts, kind, Traced.traverseMem_eq_traverse]
      refine ((walks_traverse_map fun a ha => ?_).bind_done _).opens
      have := size_lt_of_mem_alternatives ha
      exact ih a (by omega)
  case h_4 kind =>
      simp only [typeAct, bareTypeParts, kind, Traced.traverseMem_eq_traverse]
      refine ((walks_traverse_map fun e he => ?_).bind_done _).opens
      have := Cursor.size_lt_of_mem_named he
      exact walks_tupleElement path ih (by omega)
  case h_5 kind =>
      simp only [typeAct, bareTypeParts, kind, signatureTypes, List.map_append]
      refine ((walks_smallerParams path ih hn).bind fun params => ?_).opens
      exact (walks_smallerResult path ih hn).bind_done _
  case h_6 kind =>
      simp only [typeAct, bareTypeParts, kind]
      exact (walks_done path _).opens
  case h_7 =>
      simp only [typeAct, bareTypeParts, *]
      exact opens_otherType path

end

/-- Reading a type makes the visit to it. -/
theorem walks_type (path : String) (c : Cursor) : Walks path (readType path c) [.type c] := by
  have smaller : ∀ p : Cursor, p.size < c.size -> Walks path (readType path p) [.type p] :=
    fun p _ => walks_type path p
  rw [readType]
  exact Opens.walks (opens_bareType path smaller c.size_unwrapType_le)
termination_by c.size

section

variable (path : String) (c : Cursor)

theorem walks_field (name : String) (default : Decl) :
    Walks path (readField path c name default) ((c.field? name).toList.map .type) :=
  walks_smallerField path (fun p _ => walks_type path p) (Nat.le_refl c.size) name default

theorem walks_params : Walks path (readParams path c) ((paramTypes c).map .type) :=
  walks_smallerParams path (fun p _ => walks_type path p) (Nat.le_refl c.size)

theorem walks_types (cs : List Cursor) :
    Walks path (Traced.traverse (readType path) cs) (cs.map .type) :=
  walks_traverse_map fun a _ => walks_type path a

theorem walks_signature {α : Type} (f : List Param -> Decl -> α) :
    Walks path (readParams path c >>= fun params => readResult path c >>= fun result =>
      .done (f params result)) ((signatureTypes c).map .type) := by
  rw [signatureTypes, List.map_append]
  refine (walks_params path c).bind fun params => ?_
  exact (walks_smallerResult path (fun p _ => walks_type path p) (Nat.le_refl c.size)).bind_done _

/-! ## The readers of members -/

theorem opens_indexSignature (kind : c.kind = .indexSignature) :
    Opens path (readIndexSignature path c) (memberAct path c) ((memberTypes c).map .type) := by
  simp only [memberAct, memberTypes, kind, readIndexSignature]
  cases c.field? "name" with
  | none => exact opens_leaf rfl
  | some name =>
      simp only [Option.isNone_some, Bool.false_eq_true, if_false, List.map_append]
      refine Walks.opens ?_
      refine (walks_field path c "index_type" .obj).bind fun indexType => ?_
      exact (walks_field path c "type" .absent).bind_done _

theorem walks_accessor (accessor : isAccessor c.kind = true) :
    Walks path (readAccessor path c) [.member c] := by
  have act : memberAct path c = .done () := by
    unfold memberAct
    split <;> simp_all [isAccessor]
  refine Opens.walks ?_
  rw [Visit.act, Visit.parts, act, memberTypes_of_accessor accessor, readAccessor,
    readAccessorType]
  refine Walks.opens (Walks.bind_done _ ?_)
  split
  · exact walks_field path c "return_type" .absent
  · exact (walks_params path c).bind_done _

theorem walks_plainMember (plain : ¬isAccessor c.kind = true) :
    Walks path (readPlainMember path c) [.member c] := by
  refine Opens.walks ?_
  rw [Visit.act, Visit.parts, readPlainMember]
  split
  case h_1 kind => exact opens_indexSignature path c kind
  case h_2 kind | h_3 kind | h_6 kind =>
      simp only [memberAct, memberTypes, kind]
      exact ((walks_signature path c _).bind_done _).opens
  case h_4 kind | h_5 kind =>
      simp only [memberAct, memberTypes, kind]
      exact (((walks_field path c "type" .absent).bind_done _).bind_done _).opens
  case h_7 kind | h_8 kind =>
      simp only [memberAct, memberTypes, kind]
      exact (((walks_params path c).bind_done _).bind_done _).opens
  case h_9 =>
      have act : memberAct path c = noteUnsupported path "member" c := by
        unfold memberAct
        split <;> simp_all [isAccessor]
      have types : memberTypes c = [] := by
        unfold memberTypes
        split <;> simp_all [isAccessor]
      rw [act, types]
      exact opens_leaf rfl

theorem walks_membersAfter (accessors : List String) (cs : List Cursor) :
    Walks path (readMembersAfter path accessors cs) (cs.map .member) := by
  induction cs generalizing accessors with
  | nil => exact walks_done path []
  | cons c cs ih =>
      rw [readMembersAfter]
      split
      case isTrue accessor =>
          refine (walks_accessor path c accessor).bind fun property => ?_
          split
          · exact ih accessors
          · exact (ih _).bind_done _
      case isFalse plain =>
          exact (walks_plainMember path c plain).bind fun member => (ih accessors).bind_done _

theorem walks_members (body : Option Cursor) :
    Walks path (readMembers path body) ((memberNodes body).map .member) :=
  walks_membersAfter path [] (memberNodes body)

/-! ## The readers of heritage -/

theorem walks_heritage : Walks path (readHeritage path c) [.heritage c] := by
  refine Opens.walks ?_
  rw [Visit.act, Visit.parts, readHeritage]
  split
  · exact opens_fail path _ _
  · exact ((walks_types path (heritageArguments c)).bind_done _).opens

theorem walks_interfaceHeritage :
    Walks path (readInterfaceHeritage path c) ((interfaceHeritage c).map .heritage) :=
  walks_traverse_map fun entry _ => walks_heritage path entry

end

/-- A step of a reader that adds to a list of types makes the visits that `step` tells, and
the list is empty as long as no visit has been made. -/
structure Adds (path : String) (f : List Decl -> Cursor -> Reading (List Decl))
    (step : Bool -> Cursor -> List Visit) : Prop where
  walks : ∀ types c, Walks path (f types c) (step (!types.isEmpty) c)
  seen : ∀ types c, (f types c).Yields fun added =>
    (!added.isEmpty) = (!types.isEmpty || !(step (!types.isEmpty) c).isEmpty)

section

variable {path : String} {f : List Decl -> Cursor -> Reading (List Decl)}
  {step : Bool -> Cursor -> List Visit}

theorem Adds.walks_fold (h : Adds path f step) (types : List Decl) (cs : List Cursor) :
    Walks path (Traced.fold f types cs) (visitsAfter step (!types.isEmpty) cs) := by
  induction cs generalizing types with
  | nil => exact walks_done path types
  | cons c cs ih =>
      -- What the next step is told of the visits before is read off the list of types.
      refine (h.walks types c).bind_of_ok fun added outcome => ?_
      rw [← (h.seen types c).ok added outcome]
      exact ih added

theorem Adds.seen_fold (h : Adds path f step) (types : List Decl) (cs : List Cursor) :
    (Traced.fold f types cs).Yields fun added =>
      (!added.isEmpty) = (!types.isEmpty || !(visitsAfter step (!types.isEmpty) cs).isEmpty) := by
  induction cs generalizing types with
  | nil => exact Traced.ends_done (by simp [visitsAfter])
  | cons c cs ih =>
      refine Traced.Ends.bind (h.seen types c) fun added seen => ?_
      refine (ih added).imp (fun _ => id) fun all later => ?_
      rw [later, seen, visitsAfter, Bool.or_assoc]
      cases step (!types.isEmpty) c <;> rfl

end

theorem isEmpty_withLastArguments (arguments types : List Decl) :
    (withLastArguments arguments types).isEmpty = types.isEmpty := by
  fun_cases withLastArguments arguments types <;> rfl

theorem adds_extended (path : String) : Adds path (addExtended path) extendsVisits where
  walks types c := by
    unfold addExtended extendsVisits
    split
    · exact (walks_heritage path c).bind_done _
    · split
      · exact (walks_types path c.named).bind_done _
      · exact walks_done path types
  seen types c := by
    unfold addExtended extendsVisits
    split
    · exact Traced.yields_bind fun type => Traced.ends_done (by simp)
    · split
      case isTrue arguments =>
          have some := (Bool.and_eq_true_iff.mp arguments).2
          refine Traced.yields_bind fun types => Traced.ends_done ?_
          rw [isEmpty_withLastArguments, some, Bool.true_or]
      case isFalse => exact Traced.ends_done (by simp)

theorem isEmpty_of_traverse {ω ε α β : Type} (f : α -> Traced ω ε β) (as : List α) :
    (Traced.traverse f as).Yields fun bs => bs.isEmpty = as.isEmpty := by
  cases as with
  | nil => exact Traced.ends_done rfl
  | cons a as => exact Traced.yields_bind fun b => Traced.yields_bind fun bs => Traced.ends_done rfl

theorem adds_clause (path : String) : Adds path (addClause path) clauseVisits where
  walks types clause := by
    unfold addClause clauseVisits
    split
    · exact (walks_traverse_map fun entry _ => walks_heritage path entry).bind_done _
    · split
      · exact (adds_extended path).walks_fold types clause.named
      · exact walks_done path types
  seen types clause := by
    unfold addClause clauseVisits
    split
    · refine Traced.Ends.bind (isEmpty_of_traverse _ clause.named) fun more same => ?_
      exact Traced.ends_done (by cases types <;> simp [same])
    · split
      · exact (adds_extended path).seen_fold types clause.named
      · exact Traced.ends_done (by simp)

theorem walks_classHeritage (path : String) (c : Cursor) :
    Walks path (readClassHeritage path c) (classHeritage c) := by
  unfold readClassHeritage classHeritage
  cases c.named.find? fun child => child.type == "class_heritage" with
  | none => exact walks_done path []
  | some heritage => exact (adds_clause path).walks_fold [] heritage.named

/-! ## The readers of statements -/

section

variable (path : String) (c : Cursor)

theorem opens_alias :
    Opens path (readAlias path c)
      (if (aliasValue? c).isNone then .fail .emptyAlias else .done ())
      ((aliasValue? c).toList.map .type) := by
  unfold readAlias
  cases aliasValue? c with
  | none => exact opens_fail path _ _
  | some value =>
      refine Walks.opens ((walks_type path value).bind fun type => ?_ : Walks path _ ([_] ++ []))
      cases literalUnion? type <;> exact walks_done path _

theorem opens_variable (modifiers : Modifiers) :
    Opens path (readVariable path c modifiers) (variableAct path c)
      (((declarators c).head?.bind fun b => b.field? "type").toList.map .type) := by
  rw [readVariable, variableAct, ← declarators]
  match declarators c with
  | [] => exact opens_leaf rfl
  | [binding] => exact ((walks_field path binding "type" .obj).bind_done _).opens
  | binding :: _ :: _ => exact ((walks_field path binding "type" .obj).bind_done _).opens_note _

theorem walks_interface :
    Walks path (readInterface path c) ((interfaceHeritage c).map .heritage ++
      (memberNodes (body? c fun type => type == "interface_body" || type == "object_type")).map
        .member) :=
  (walks_interfaceHeritage path c).bind fun _ => (walks_members path _).bind_done _

theorem walks_class :
    Walks path (readClass path c) (classHeritage c ++
      (memberNodes (body? c fun type => type == "class_body")).map .member) :=
  (walks_classHeritage path c).bind fun _ => (walks_members path _).bind_done _

variable {c}

theorem opens_plainStatement (kept : ¬isTrivia c = true)
    (plain : ¬(c.kind == .moduleDeclaration) = true) (modifiers : Modifiers) :
    Opens path (readPlainStatement path c modifiers) (statementAct path c)
      (bareStatementParts c) := by
  have module : ¬c.kind = .moduleDeclaration := mt beq_iff_eq.mpr plain
  simp only [statementAct, bareStatementParts, if_neg kept]
  unfold readPlainStatement
  split
  case h_1 kind =>
      simp only [kind]
      exact ((walks_interface path c).bind_done _).opens
  case h_2 kind =>
      simp only [kind]
      exact ((walks_class path c).bind_done _).opens
  case h_3 kind =>
      simp only [kind]
      exact (walks_done path _).opens
  case h_4 kind =>
      simp only [kind]
      exact opens_alias path c
  case h_5 kind =>
      simp only [kind]
      exact opens_variable path c modifiers
  case h_6 kind =>
      simp only [kind]
      exact ((walks_signature path c _).bind_done _).opens
  case h_7 kind | h_8 kind | h_9 kind | h_10 kind =>
      simp only [kind]
      exact opens_leaf rfl
  case h_11 =>
      simp only [*]
      exact opens_leaf rfl

end

/-- Reading a statement makes the visit to it. -/
theorem walks_statement (path : String) (c : Cursor) :
    Walks path (readStatement path c) [.statement c] := by
  have smaller : ∀ s ∈ moduleStatements c.unwrapStatement.1,
      Walks path (readStatement path s) [.statement s] := by
    intro s hs
    have := size_lt_of_mem_moduleStatements hs
    have := c.size_unwrapStatement_le
    exact walks_statement path s
  refine Opens.walks ?_
  rw [readStatement_eq]
  refine Opens.map _ ?_
  rw [Visit.act, Visit.parts, readBareStatement]
  split
  case isTrue trivia =>
      simp only [statementAct, bareStatementParts, if_pos trivia]
      exact (walks_done path _).opens
  case isFalse kept =>
      split
      case isTrue module =>
          simp only [statementAct, bareStatementParts, if_neg kept, beq_iff_eq.mp module]
          rw [readModule_eq]
          exact (((walks_traverse_map smaller).map _).map _).opens
      case isFalse plain => exact (opens_plainStatement path kept plain .none).map _
termination_by c.size

/-! ## The log of a file -/

/-- The visits that are made: those before the first one that gives up. -/
def Visit.made (path : String) (visits : List Visit) : List Visit :=
  visits.takeWhile fun v => (v.act path).cause?.isNone

/-- Nothing is done, or one thing is noted, or the reader gives up. -/
inductive IsAct : Reading Unit -> Prop
  | done : IsAct (.done ())
  | note (event : Event) : IsAct (.note event)
  | fail (cause : ReadError) : IsAct (.fail cause)

theorem IsAct.events_bind {x : Reading Unit} (h : IsAct x) (y : Reading Unit) :
    (x >>= fun _ => y).events = if x.cause?.isNone then x.events ++ y.events else [] := by
  cases h <;> rfl

namespace Visit

variable (path : String)

theorem isAct_act (v : Visit) : IsAct (v.act path) := by
  cases v with
  | type c =>
      rw [act, typeAct, otherTypeAct]
      repeat' split
      all_goals constructor
  | element c => exact .done
  | heritage c =>
      rw [act]
      split <;> constructor
  | member c =>
      rw [act, memberAct]
      repeat' split
      all_goals constructor
  | statement c =>
      rw [act, statementAct, variableAct]
      repeat' split
      all_goals constructor

theorem events_each_act (visits : List Visit) :
    (Traced.each (act path) visits).events =
      (made path visits).flatMap fun v => (v.act path).events := by
  induction visits with
  | nil => rfl
  | cons v visits ih =>
      rw [Traced.each, (v.isAct_act path).events_bind, made, List.takeWhile_cons, ih]
      split <;> rfl

end Visit

theorem walks_declarations (path : String) (tree : Node) :
    Walks path (readDeclarations path tree) ((Cursor.root tree).named.map .statement) :=
  (walks_traverse_map fun s _ => walks_statement path s).bind_done _

theorem Traced.events_map {ω ε α β : Type} (f : α -> β) (x : Traced ω ε α) :
    (f <$> x).events = x.events := by
  obtain ⟨events, outcome⟩ := x
  cases outcome with
  | ok a => exact List.append_nil events
  | error cause => rfl

/-- The log of a file is what its visits note, up to the first one that gives up. -/
theorem events_readDeclarations (path : String) (tree : Node) :
    (readDeclarations path tree).events =
      (Visit.made path (Visit.ofFile tree)).flatMap fun v => (v.act path).events := by
  have same := congrArg Traced.events (walks_declarations path tree)
  rw [Visit.events_each_act] at same
  rw [Visit.ofFile, ← same, Traced.events_map]

end Bindgen
