import Bindgen.Proofs.Parts
import Bindgen.Proofs.Reading.Log
import Mathlib.Algebra.GroupWithZero.Nat

/-! # Where `todo` comes from

Each `todo` in what is read goes back to a visit of its own: to a type, a member or a
statement that is read to it, or to an element of a tuple with nothing in it. So `todo`
does not occur more often in the declarations of a file than there are such visits.
-/

namespace Bindgen

open Syntax

/-! ## Counting in declarations -/

namespace Decl

/-- How often `todo` occurs in a declaration. -/
def todos (d : Decl) : Nat :=
  d.parts.count .todo

def todosIn (ds : List Decl) : Nat :=
  (ds.map todos).sum

def innerTodos (d : Decl) : Nat :=
  todosIn d.children

@[simp] theorem todosIn_nil : todosIn [] = 0 := rfl

@[simp] theorem todosIn_cons (d : Decl) (ds : List Decl) :
    todosIn (d :: ds) = d.todos + todosIn ds := by
  simp [todosIn]

@[simp] theorem todosIn_append (ds es : List Decl) :
    todosIn (ds ++ es) = todosIn ds + todosIn es := by
  simp [todosIn]

theorem todosIn_eq_count (ds : List Decl) : todosIn ds = (ds.flatMap parts).count .todo := by
  rw [List.count_flatMap]
  rfl

theorem todos_eq (d : Decl) : d.todos = d.innerTodos + if d = .todo then 1 else 0 := by
  rw [todos, parts_eq, List.count_append, ← todosIn_eq_count, List.count_singleton]
  simp [innerTodos]

theorem todos_of_ne {d : Decl} (h : d ≠ .todo) : d.todos = d.innerTodos := by
  rw [todos_eq, if_neg h, Nat.add_zero]

@[simp] theorem todos_named (name : String) : (Decl.named name).todos = 0 :=
  todos_of_ne nofun

@[simp] theorem todos_param (p : Param) : (Decl.param p).todos = p.type.todos := by
  have inner : (Decl.param p).todos = (Decl.param p).innerTodos := todos_of_ne nofun
  simpa [innerTodos, children] using inner

theorem todos_property (p : Property) : (Decl.property p).todos = (Decl.property p).innerTodos :=
  todos_of_ne nofun

theorem todos_module (m : Module) : (Decl.module m).todos = todosIn m.entries :=
  todos_of_ne nofun

theorem todos_generic (base : Decl) (arguments : List Decl) :
    (Decl.generic base arguments).todos = base.todos + todosIn arguments := by
  have inner : (Decl.generic base arguments).todos = (Decl.generic base arguments).innerTodos :=
    todos_of_ne nofun
  simpa [innerTodos, children] using inner

theorem todosIn_params (ps : List Param) :
    todosIn (ps.map .param) = (ps.map fun p => p.type.todos).sum := by
  simp [todosIn, Function.comp_def]

theorem todosIn_dedupeFrom_le (kept ds : List Decl) :
    todosIn (dedupeFrom kept ds) ≤ todosIn kept + todosIn ds := by
  induction ds generalizing kept with
  | nil => simp [dedupeFrom]
  | cons d ds ih =>
      rw [dedupeFrom, todosIn_cons]
      split
      · have := ih kept
        omega
      · have := ih (kept ++ [d])
        simp only [todosIn_append, todosIn_cons, todosIn_nil] at this
        omega

theorem todosIn_dedupe_le (ds : List Decl) : todosIn (dedupe ds) ≤ todosIn ds := by
  simpa [dedupe] using todosIn_dedupeFrom_le [] ds

theorem todosIn_withLastArguments_le (arguments types : List Decl) :
    todosIn (withLastArguments arguments types) ≤ todosIn types + todosIn arguments := by
  fun_induction withLastArguments arguments types with
  | case1 => simp
  | case2 base old =>
      simp only [todosIn_cons, todosIn_nil, todos_generic]
      omega
  | case3 d ds _ ih =>
      simp only [todosIn_cons]
      omega

theorem todosIn_readTypeParams (c : Cursor) : todosIn (readTypeParams c) = 0 := by
  simp [todosIn, readTypeParams, Function.comp_def]

end Decl

/-! ## Counting visits -/

/-- An optional or rest element of a tuple with nothing in it. -/
def isEmptyWrapper (c : Cursor) : Bool :=
  (c.type == "optional_type" || c.type == "rest_type") && c.named.isEmpty

namespace Visit

/-- The visit is where a `todo` comes from. -/
def yieldsTodo (path : String) : Visit -> Bool
  | .type c => decide ((readType path c).value? = some .todo)
  | .element c => isEmptyWrapper c
  | .heritage _ => false
  | .member c => decide ((readMember path c).value? = some .todo)
  | .statement c => decide ((readStatement path c).value? = some (some .todo))

/-- The number of places where a `todo` comes from, among the visits and those inside. -/
def todos (path : String) (visits : List Visit) : Nat :=
  (visits.flatMap walk).countP (yieldsTodo path)

variable (path : String)

theorem todos_append (visits more : List Visit) :
    todos path (visits ++ more) = todos path visits + todos path more := by
  simp [todos]

theorem todos_singleton (v : Visit) :
    todos path [v] = todos path v.parts + if v.yieldsTodo path then 1 else 0 := by
  rw [todos, List.flatMap_singleton, walk_eq, List.countP_cons]
  rfl

end Visit

section

variable {α β : Type}

/-- Of what is read, the visits account for so much. -/
def Accounts (path : String) (x : Reading α) (size : α -> Nat) (visits : List Visit) : Prop :=
  x.Yields fun a => size a ≤ Visit.todos path visits

variable {path : String} {x : Reading α} {visits more : List Visit} {size : α -> Nat}

theorem accounts_done {a : α} (h : size a = 0) : Accounts path (.done a) size visits :=
  Traced.ends_done (h ▸ Nat.zero_le _)

theorem Accounts.bind {f : α -> Reading β} {size' : β -> Nat} (hx : Accounts path x size visits)
    (hf : ∀ a, (f a).Yields fun b => size' b ≤ size a + Visit.todos path more) :
    Accounts path (x >>= f) size' (visits ++ more) := by
  refine Traced.Ends.bind hx fun a ha => (hf a).imp (fun _ => id) fun b hb => ?_
  rw [Visit.todos_append]
  omega

theorem Accounts.bind_done {f : α -> β} {size' : β -> Nat} (hx : Accounts path x size visits)
    (hf : ∀ a, size' (f a) ≤ size a) :
    Accounts path (x >>= fun a => .done (f a)) size' visits :=
  Traced.Ends.bind hx fun a ha => Traced.ends_done (Nat.le_trans (hf a) ha)

theorem accounts_traverse {f : α -> Reading β} {size : β -> Nat} {inside : α -> List Visit}
    {as : List α} (h : ∀ a ∈ as, Accounts path (f a) size (inside a)) :
    Accounts path (Traced.traverse f as) (fun bs => (bs.map size).sum) (as.flatMap inside) := by
  induction as with
  | nil => exact accounts_done rfl
  | cons a as ih =>
      obtain ⟨first, rest⟩ := List.forall_mem_cons.mp h
      rw [List.flatMap_cons]
      refine first.bind fun b => Traced.Ends.bind (ih rest) fun bs hbs => Traced.ends_done ?_
      rw [List.map_cons, List.sum_cons]
      exact Nat.add_le_add_left hbs (size b)

theorem accounts_traverse_map {f : α -> Reading Decl} {visit : α -> Visit} {as : List α}
    (h : ∀ a ∈ as, Accounts path (f a) Decl.todos [visit a]) :
    Accounts path (Traced.traverse f as) Decl.todosIn (as.map visit) := by
  rw [List.map_eq_flatMap]
  exact accounts_traverse h

/-- There is nothing below a declaration without children. -/
theorem accounts_of_childless {x : Reading Decl} (h : x.Yields fun d => d.children = []) :
    Accounts path x Decl.innerTodos visits :=
  Traced.Ends.imp h (fun _ => id) fun d none => by simp [Decl.innerTodos, none]

theorem Accounts.inside {v : Visit} (h : Accounts path x size v.parts) :
    Accounts path x size [v] :=
  Traced.Ends.imp h (fun _ => id) fun a ha => by
    rw [Visit.todos_singleton]
    exact Nat.le_add_right_of_le ha

/-- What is read at a visit holds a `todo` below it for each place inside, and is one only
if the visit is such a place. -/
theorem Accounts.visit {x : Reading Decl} {v : Visit}
    (inside : Accounts path x Decl.innerTodos v.parts)
    (here : x.value? = some .todo -> v.yieldsTodo path = true) :
    Accounts path x Decl.todos [v] where
  ok d outcome := by
    have below := inside.ok d outcome
    rw [Decl.todos_eq, Visit.todos_singleton]
    split
    case isTrue todo =>
        rw [here (todo ▸ Traced.value?_eq_some_iff.mpr outcome), if_pos rfl]
        omega
    case isFalse => omega
  error _ _ := trivial

end

/-! ## The readers of types -/

theorem children_plainType? {kind : Kind} {d : Decl} (h : plainType? kind = some d) :
    d.children = [] := by
  unfold plainType? at h
  split at h <;> cases h <;> rfl

theorem children_readLiteral (c : Cursor) : (readLiteral c).children = [] := by
  unfold readLiteral
  split
  · split <;> rfl
  · rfl

section

variable (path : String) {c : Cursor}

theorem plainReference_childless :
    (readPlainReference path c).Yields fun d => d.children = [] := by
  unfold readPlainReference
  split
  · exact Traced.ends_fail trivial
  · exact Traced.ends_done rfl

theorem otherType_childless : (readOtherType path c).Yields fun d => d.children = [] := by
  unfold readOtherType
  split
  case h_1 type plain => exact Traced.ends_done (children_plainType? plain)
  case h_2 => split <;> exact Traced.ends_note_bind (Traced.ends_done rfl)

variable {n : Nat}
  (ih : ∀ p : Cursor, p.size < n -> Accounts path (readType path p) Decl.todos [.type p])

include ih

theorem accounts_smallerField (hn : c.size ≤ n) (name : String) {default : Decl}
    (h : default.todos = 0) :
    Accounts path (readField path c name default) Decl.todos
      ((c.field? name).toList.map .type) := by
  unfold readField
  cases field : c.field? name with
  | none => exact accounts_done h
  | some type =>
      have := Cursor.size_lt_of_field? field
      exact ih type (by omega)

theorem accounts_smallerParams (hn : c.size ≤ n) :
    Accounts path (readParams path c) (fun ps => Decl.todosIn (ps.map .param))
      ((paramTypes c).map .type) := by
  simp only [Decl.todosIn_params]
  rw [readParams_eq, map_paramTypes]
  refine accounts_traverse fun p hp => ?_
  have := size_lt_of_mem_parameters hp
  rw [readParam_eq]
  exact (accounts_smallerField path ih (by omega) "type" (Decl.todos_named _)).bind_done
    fun _ => Nat.le_refl _

theorem accounts_smallerSignature (hn : c.size ≤ n) {α : Type} {f : List Param -> Decl -> α}
    {size : α -> Nat}
    (hf : ∀ params result, size (f params result) ≤
      Decl.todosIn (params.map .param) + result.todos) :
    Accounts path (readParams path c >>= fun params => readResult path c >>= fun result =>
      .done (f params result)) size ((signatureTypes c).map .type) := by
  have accountsResult :
      Accounts path (readResult path c) Decl.todos ((result? c).toList.map .type) := by
    rw [readResult_eq]
    cases result : result? c with
    | none => exact accounts_done (Decl.todos_named _)
    | some type =>
        have := size_lt_of_result? result
        exact ih type (by omega)
  rw [signatureTypes, List.map_append]
  refine (accounts_smallerParams path ih hn).bind fun params => ?_
  refine Traced.Ends.bind accountsResult fun result h => ?_
  exact Traced.ends_done (Nat.le_trans (hf params result) (Nat.add_le_add_left h _))

theorem accounts_tupleElement (hn : c.size < n) :
    Accounts path (readTupleElement path c) Decl.todos [.element c] := by
  have typed : ∀ t, elementType? c = some t -> Accounts path (readType path t) Decl.todos
      [.element c] := by
    intro t type
    have := size_le_of_elementType? type
    refine Accounts.inside ?_
    rw [Visit.parts, type]
    exact ih t (by omega)
  rw [readTupleElement_eq]
  split
  case isTrue wrapper =>
      cases named : c.named with
      | nil =>
          have here : (Visit.element c).yieldsTodo path = true := by
            rw [Visit.yieldsTodo, isEmptyWrapper, wrapper, named]
            rfl
          exact Accounts.visit (accounts_of_childless (Traced.ends_done rfl)) fun _ => here
      | cons inner rest => exact typed inner (by rw [elementType?, if_pos wrapper, named]; rfl)
  case isFalse other =>
      split
      case isTrue member =>
          unfold readField
          cases field : c.field? "type" with
          | none => exact accounts_done (Decl.todos_named _)
          | some t => exact typed t (by rw [elementType?, if_neg other, if_pos member, field])
      case isFalse bare => exact typed c (by rw [elementType?, if_neg other, if_neg bare])

theorem accounts_bareType (hn : c.size ≤ n) :
    Accounts path (readBareType path c) Decl.innerTodos (bareTypeParts c) := by
  rw [readBareType]
  split
  case h_1 kind =>
      split
      case isTrue generic =>
          simp only [bareTypeParts, kind, if_pos generic]
          split
          case isTrue => exact Traced.ends_fail trivial
          case isFalse =>
              rw [Traced.traverseMem_eq_traverse]
              refine (accounts_traverse_map fun a ha => ?_).bind_done fun types => ?_
              · have := Cursor.size_lt_of_mem_fieldNamed ha
                exact ih a (by omega)
              · simp [Decl.innerTodos, Decl.children]
      case isFalse => exact accounts_of_childless (plainReference_childless path)
  case h_2 kind =>
      simp only [bareTypeParts, kind]
      cases named : c.named with
      | nil => exact accounts_of_childless (Traced.ends_note_bind (Traced.ends_done rfl))
      | cons element rest =>
          have := Cursor.size_lt_of_named_eq_cons named
          exact (ih element (by omega)).bind_done fun _ => by simp [Decl.innerTodos, Decl.children]
  case h_3 kind =>
      simp only [bareTypeParts, kind, Traced.traverseMem_eq_traverse]
      refine (accounts_traverse_map fun a ha => ?_).bind_done Decl.todosIn_dedupe_le
      have := size_lt_of_mem_alternatives ha
      exact ih a (by omega)
  case h_4 kind =>
      simp only [bareTypeParts, kind, Traced.traverseMem_eq_traverse]
      refine (accounts_traverse_map fun e he => ?_).bind_done fun types => Nat.le_refl _
      have := Cursor.size_lt_of_mem_named he
      exact accounts_tupleElement path ih (by omega)
  case h_5 kind =>
      simp only [bareTypeParts, kind]
      refine accounts_smallerSignature path ih hn fun params result => ?_
      simp [Decl.innerTodos, Decl.children, Decl.todosIn_readTypeParams]
  case h_6 => exact accounts_of_childless (Traced.ends_done (children_readLiteral c))
  case h_7 => exact accounts_of_childless (otherType_childless path)

end

/-- The visit to a type accounts for what is read there. -/
theorem accounts_type (path : String) (c : Cursor) :
    Accounts path (readType path c) Decl.todos [.type c] := by
  have smaller : ∀ p : Cursor, p.size < c.size ->
      Accounts path (readType path p) Decl.todos [.type p] :=
    fun p _ => accounts_type path p
  refine Accounts.visit ?_ fun todo => decide_eq_true todo
  rw [readType]
  exact accounts_bareType path smaller c.size_unwrapType_le
termination_by c.size

section

variable (path : String) (c : Cursor)

theorem accounts_field (name : String) {default : Decl} (h : default.todos = 0) :
    Accounts path (readField path c name default) Decl.todos
      ((c.field? name).toList.map .type) :=
  accounts_smallerField path (fun p _ => accounts_type path p) (Nat.le_refl c.size) name h

theorem accounts_params :
    Accounts path (readParams path c) (fun ps => Decl.todosIn (ps.map .param))
      ((paramTypes c).map .type) :=
  accounts_smallerParams path (fun p _ => accounts_type path p) (Nat.le_refl c.size)

/-- A signature without `todo` in its type parameters. -/
theorem accounts_signature {f : List Param -> Decl -> Signature}
    (hf : ∀ params result, (f params result).params = params ∧ (f params result).result = result ∧
      Decl.todosIn (f params result).typeParams = 0) :
    Accounts path (readParams path c >>= fun params => readResult path c >>= fun result =>
      .done (f params result)) (fun s => (Decl.function s).innerTodos)
      ((signatureTypes c).map .type) := by
  refine accounts_smallerSignature path (fun p _ => accounts_type path p) (Nat.le_refl c.size) ?_
  intro params result
  obtain ⟨hparams, hresult, htypeParams⟩ := hf params result
  simp [Decl.innerTodos, Decl.children, hparams, hresult, htypeParams]

/-! ## The readers of members and heritage -/

theorem todos_absent : Decl.absent.todos = 0 :=
  Decl.todos_of_ne nofun

theorem accounts_constructSignature :
    Accounts path (readConstructSignature path c) (fun s => (Decl.function s).innerTodos)
      ((paramTypes c).map .type) := by
  have self : Decl.self.todos = 0 := Decl.todos_of_ne nofun
  refine (accounts_params path c).bind_done fun params => ?_
  simp [Decl.innerTodos, Decl.children, Decl.todosIn_readTypeParams, self]

theorem accounts_property {optional static : Bool} {name : String} :
    Accounts path (readField path c "type" .absent >>= fun type =>
      .done (⟨none, static, none, name, optional, type⟩ : Property))
      (fun p => (Decl.property p).innerTodos) ((c.field? "type").toList.map .type) :=
  (accounts_field path c "type" todos_absent).bind_done fun _ => by
    simp [Decl.innerTodos, Decl.children]

theorem accounts_indexSignature (kind : c.kind = .indexSignature) :
    Accounts path (readIndexSignature path c) Decl.innerTodos ((memberTypes c).map .type) := by
  simp only [memberTypes, kind, readIndexSignature]
  cases c.field? "name" with
  | none => exact accounts_of_childless (Traced.ends_note_bind (Traced.ends_done rfl))
  | some name =>
      simp only [Option.isNone_some, Bool.false_eq_true, if_false, List.map_append]
      refine (accounts_field path c "index_type" (Decl.todos_named _)).bind fun indexType => ?_
      refine Traced.Ends.bind (accounts_field path c "type" todos_absent) fun type h => ?_
      refine Traced.ends_done ?_
      simpa [Decl.innerTodos, Decl.children] using h

theorem accounts_accessor (accessor : isAccessor c.kind = true) :
    Accounts path (readAccessor path c) (fun p => (Decl.property p).todos) [.member c] := by
  have accountsType : Accounts path (readAccessorType path c) Decl.todos
      ((memberTypes c).map .type) := by
    rw [readAccessorType, memberTypes_of_accessor accessor]
    split
    · exact accounts_field path c "return_type" todos_absent
    · refine (accounts_params path c).bind_done fun params => ?_
      cases params with
      | nil => exact Nat.le_of_eq todos_absent
      | cons p ps => simp
  refine Accounts.inside (accountsType.bind_done fun type => ?_)
  simp [Decl.todos_property, Decl.innerTodos, Decl.children]

theorem accounts_plainMember (plain : ¬isAccessor c.kind = true) :
    Accounts path (readPlainMember path c) Decl.todos [.member c] := by
  refine Accounts.visit ?_ fun todo => ?_
  · rw [Visit.parts, readPlainMember]
    split
    case h_1 kind => exact accounts_indexSignature path c kind
    case h_2 kind | h_3 kind =>
        simp only [memberTypes, kind]
        refine (accounts_signature path c fun params result => ?_).bind_done fun s => Nat.le_refl _
        exact ⟨rfl, rfl, Decl.todosIn_readTypeParams c⟩
    case h_6 kind =>
        simp only [memberTypes, kind]
        refine (accounts_signature path c fun params result => ?_).bind_done fun s => Nat.le_refl _
        exact ⟨rfl, rfl, rfl⟩
    case h_4 kind | h_5 kind =>
        simp only [memberTypes, kind]
        exact (accounts_property path c).bind_done fun p => Nat.le_refl _
    case h_7 kind | h_8 kind =>
        simp only [memberTypes, kind]
        exact (accounts_constructSignature path c).bind_done fun s => Nat.le_refl _
    case h_9 => exact accounts_of_childless (Traced.ends_note_bind (Traced.ends_done rfl))
  · rw [Visit.yieldsTodo, readMember, if_neg plain]
    exact decide_eq_true todo

theorem accounts_membersAfter (accessors : List String) (cs : List Cursor) :
    Accounts path (readMembersAfter path accessors cs) Decl.todosIn (cs.map .member) := by
  induction cs generalizing accessors with
  | nil => exact accounts_done rfl
  | cons c cs ih =>
      rw [readMembersAfter]
      split
      case isTrue accessor =>
          refine (accounts_accessor path c accessor).bind fun property => ?_
          split
          -- A folded accessor is left out of the members but is visited.
          · exact (ih accessors).imp (fun _ => id) fun _ h => Nat.le_add_left_of_le h
          · refine Traced.Ends.bind (ih _) fun rest h => Traced.ends_done ?_
            rw [Decl.todosIn_cons]
            exact Nat.add_le_add_left h _
      case isFalse plain =>
          refine (accounts_plainMember path c plain).bind fun member => ?_
          refine Traced.Ends.bind (ih accessors) fun rest h => Traced.ends_done ?_
          rw [Decl.todosIn_cons]
          exact Nat.add_le_add_left h _

theorem accounts_heritage : Accounts path (readHeritage path c) Decl.todos [.heritage c] := by
  refine Accounts.inside ?_
  rw [readHeritage]
  split
  · exact Traced.ends_fail trivial
  · refine (accounts_traverse_map fun a _ => accounts_type path a).bind_done fun types => ?_
    simp [Decl.todos_generic]

end

theorem Adds.todosIn_fold {path : String} {f : List Decl -> Cursor -> Reading (List Decl)}
    {step : Bool -> Cursor -> List Visit} (h : Adds path f step)
    (one : ∀ types c, (f types c).Yields fun added =>
      Decl.todosIn added ≤ Decl.todosIn types + Visit.todos path (step (!types.isEmpty) c))
    (types : List Decl) (cs : List Cursor) :
    (Traced.fold f types cs).Yields fun added => Decl.todosIn added ≤
      Decl.todosIn types + Visit.todos path (visitsAfter step (!types.isEmpty) cs) := by
  induction cs generalizing types with
  | nil => exact Traced.ends_done (Nat.le_add_right _ _)
  | cons c cs ih =>
      have both : (f types c).Yields fun added =>
          (!added.isEmpty) = (!types.isEmpty || !(step (!types.isEmpty) c).isEmpty) ∧
          Decl.todosIn added ≤ Decl.todosIn types + Visit.todos path (step (!types.isEmpty) c) :=
        ⟨fun a ha => ⟨(h.seen types c).ok a ha, (one types c).ok a ha⟩, fun _ _ => trivial⟩
      refine Traced.Ends.bind both fun added ⟨seen, less⟩ => ?_
      refine (ih added).imp (fun _ => id) fun all later => ?_
      rw [visitsAfter, ← seen, Visit.todos_append]
      omega

theorem todosIn_extended (path : String) (types : List Decl) (c : Cursor) :
    (addExtended path types c).Yields fun added => Decl.todosIn added ≤
      Decl.todosIn types + Visit.todos path (extendsVisits (!types.isEmpty) c) := by
  unfold addExtended extendsVisits
  split
  · refine Traced.Ends.bind (accounts_heritage path c) fun type h => Traced.ends_done ?_
    simpa using h
  · split
    · have accounts := accounts_traverse_map fun a (_ : a ∈ c.named) => accounts_type path a
      refine Traced.Ends.bind accounts fun arguments h => Traced.ends_done ?_
      have := Decl.todosIn_withLastArguments_le arguments types
      omega
    · exact Traced.ends_done (Nat.le_add_right _ _)

theorem todosIn_clause (path : String) (types : List Decl) (clause : Cursor) :
    (addClause path types clause).Yields fun added => Decl.todosIn added ≤
      Decl.todosIn types + Visit.todos path (clauseVisits (!types.isEmpty) clause) := by
  unfold addClause clauseVisits
  split
  · have accounts := accounts_traverse_map fun a (_ : a ∈ clause.named) => accounts_heritage path a
    refine Traced.Ends.bind accounts fun more h => Traced.ends_done ?_
    rw [Decl.todosIn_append]
    omega
  · split
    · exact (adds_extended path).todosIn_fold (todosIn_extended path) types clause.named
    · exact Traced.ends_done (Nat.le_add_right _ _)

theorem accounts_classHeritage (path : String) (c : Cursor) :
    Accounts path (readClassHeritage path c) Decl.todosIn (classHeritage c) := by
  unfold readClassHeritage classHeritage
  cases c.named.find? fun child => child.type == "class_heritage" with
  | none => exact accounts_done rfl
  | some heritage =>
      have fold := (adds_clause path).todosIn_fold (todosIn_clause path) [] heritage.named
      exact fold.imp (fun _ => id) fun added h => by simpa using h

/-! ## The readers of statements -/

section

variable (path : String) (c : Cursor)

theorem accounts_interface :
    Accounts path (readInterface path c) (fun i => (Decl.interface i).innerTodos)
      ((interfaceHeritage c).map .heritage ++
        (memberNodes (body? c fun type => type == "interface_body" || type == "object_type")).map
          .member) := by
  have heritage := accounts_traverse_map fun a (_ : a ∈ interfaceHeritage c) =>
    accounts_heritage path a
  refine Accounts.bind heritage fun inherits => ?_
  refine Traced.Ends.bind (accounts_membersAfter path [] _) fun members h => Traced.ends_done ?_
  simpa [Decl.innerTodos, Decl.children, Decl.todosIn_readTypeParams] using h

theorem accounts_class :
    Accounts path (readClass path c) (fun i => (Decl.interface i).innerTodos)
      (classHeritage c ++
        (memberNodes (body? c fun type => type == "class_body")).map .member) := by
  refine (accounts_classHeritage path c).bind fun inherits => ?_
  refine Traced.Ends.bind (accounts_membersAfter path [] _) fun members h => Traced.ends_done ?_
  simpa [Decl.innerTodos, Decl.children, Decl.todosIn_readTypeParams] using h

theorem accounts_alias :
    Accounts path (readAlias path c) Decl.innerTodos ((aliasValue? c).toList.map .type) := by
  unfold readAlias
  cases aliasValue? c with
  | none => exact Traced.ends_fail trivial
  | some value =>
      refine Traced.Ends.bind (accounts_type path value) fun type h => ?_
      cases literalUnion? type with
      | some texts => exact accounts_of_childless (Traced.ends_done rfl)
      | none =>
          refine Traced.ends_done ?_
          simpa [Decl.innerTodos, Decl.children, Decl.todosIn_readTypeParams] using h

theorem accounts_variable (modifiers : Modifiers) :
    Accounts path (readVariable path c modifiers) Decl.innerTodos
      (((declarators c).head?.bind fun b => b.field? "type").toList.map .type) := by
  have typed : ∀ b : Cursor, Accounts path (readField path b "type" .obj >>= fun type =>
      .done (.var ⟨modifiers.declared, b.fieldText "name", type⟩)) Decl.innerTodos
      ((b.field? "type").toList.map .type) := fun b =>
    (accounts_field path b "type" (Decl.todos_named _)).bind_done fun _ => by
      simp [Decl.innerTodos, Decl.children]
  rw [readVariable, ← declarators]
  rcases declarators c with _ | ⟨binding, _ | ⟨_, _⟩⟩
  · exact accounts_of_childless (Traced.ends_note_bind (Traced.ends_done rfl))
  · exact typed binding
  · exact Traced.ends_note_bind (typed binding)

variable {c}

theorem accounts_plainStatement (kept : ¬isTrivia c = true) (modifiers : Modifiers) :
    Accounts path (readPlainStatement path c modifiers) Decl.innerTodos
      (bareStatementParts c) := by
  simp only [bareStatementParts, if_neg kept]
  unfold readPlainStatement
  split
  case h_1 kind =>
      simp only [kind]
      exact (accounts_interface path c).bind_done fun _ => Nat.le_refl _
  case h_2 kind =>
      simp only [kind]
      exact (accounts_class path c).bind_done fun _ => Nat.le_refl _
  case h_3 => exact accounts_of_childless (Traced.ends_done rfl)
  case h_4 kind =>
      simp only [kind]
      exact accounts_alias path c
  case h_5 kind =>
      simp only [kind]
      exact accounts_variable path c modifiers
  case h_6 kind =>
      simp only [kind]
      refine (accounts_signature path c fun params result => ?_).bind_done fun _ => Nat.le_refl _
      exact ⟨rfl, rfl, Decl.todosIn_readTypeParams c⟩
  case h_7 | h_8 | h_9 | h_10 | h_11 =>
      exact accounts_of_childless (Traced.ends_note_bind (Traced.ends_done rfl))

end

theorem todos_nestModules (entries : List Decl) (names : List String) :
    (nestModules entries names).todos = Decl.todosIn entries := by
  fun_induction nestModules entries names with
  | case1 | case2 => exact Decl.todos_module _
  | case3 name names _ ih =>
      rw [Decl.todos_module]
      simpa using ih

def statementTodos (found : Option Decl) : Nat :=
  (found.map Decl.todos).getD 0

theorem todosIn_filterMap (found : List (Option Decl)) :
    Decl.todosIn (found.filterMap id) = (found.map statementTodos).sum := by
  induction found with
  | nil => rfl
  | cons first rest ih => cases first <;> simpa [statementTodos] using ih

/-- The visit to a statement accounts for what is read there. -/
theorem accounts_statement (path : String) (c : Cursor) :
    Accounts path (readStatement path c) statementTodos [.statement c] := by
  have smaller : ∀ s ∈ moduleStatements c.unwrapStatement.1,
      Accounts path (readStatement path s) statementTodos [.statement s] := by
    intro s hs
    have := size_lt_of_mem_moduleStatements hs
    have := c.size_unwrapStatement_le
    exact accounts_statement path s
  by_cases trivia : isTrivia c.unwrapStatement.1 = true
  · rw [readStatement]
    simp only [if_pos trivia]
    exact accounts_done rfl
  by_cases module : (c.unwrapStatement.1.kind == .moduleDeclaration) = true
  · have inside : Accounts path (readModule path c.unwrapStatement.1) Decl.todos
        (Visit.statement c).parts := by
      simp only [Visit.parts, bareStatementParts, if_neg trivia, beq_iff_eq.mp module]
      rw [readModule_eq, List.map_eq_flatMap]
      refine Accounts.bind_done (accounts_traverse smaller) fun entries => Nat.le_of_eq ?_
      rw [todos_nestModules, todosIn_filterMap]
    rw [readStatement]
    simp only [if_neg trivia, if_pos module]
    exact (Accounts.inside inside).bind_done fun _ => Nat.le_refl _
  · have plain : readStatement path c =
        (readPlainStatement path c.unwrapStatement.1 c.unwrapStatement.2 >>= fun d =>
          .done (some d)) := by
      rw [readStatement]
      simp only [if_neg trivia, if_neg module]
    rw [plain]
    refine Accounts.bind_done (Accounts.visit (accounts_plainStatement path trivia _) ?_)
      fun _ => Nat.le_refl _
    intro todo
    rw [Visit.yieldsTodo, plain, Traced.value?_bind, todo]
    exact decide_eq_true rfl
termination_by c.size

/-- The visits to a file account for what is read there. -/
theorem todosIn_readDeclarations_le {path : String} {tree : Node} {ds : List Decl}
    (read : (readDeclarations path tree).value? = some ds) :
    Decl.todosIn ds ≤ (Visit.ofFile tree).countP (Visit.yieldsTodo path) := by
  have accounts : Accounts path (readDeclarations path tree) Decl.todosIn
      ((Cursor.root tree).named.map .statement) := by
    rw [List.map_eq_flatMap]
    refine Accounts.bind_done (accounts_traverse fun s _ => accounts_statement path s) ?_
    exact fun found => Nat.le_of_eq (todosIn_filterMap found)
  exact accounts.ok ds (Traced.value?_eq_some_iff.mp read)

end Bindgen
