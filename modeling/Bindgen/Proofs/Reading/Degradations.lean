import Mathlib.Data.List.Forall2
import Mathlib.Data.List.TakeWhile
import Bindgen.Proofs.OneLine.Reading
import Bindgen.Proofs.Reading.Todos

/-! # What is given up is reported

A type, a member or a statement that has no counterpart becomes `todo` or the type of any
value. Each time that happens the log gets an event of its own that names the node and its
line, with two exceptions: a literal type that is no string becomes the type of any value
without a word, and so does an optional or rest element of a tuple with nothing in it
become `todo`.
-/

namespace Bindgen

open Syntax

/-- The event names the node and its line. -/
def Event.Reports (e : Event) (c : Cursor) : Prop :=
  ("node_type", .text c.type) ∈ e.fields ∧ ("line", .number c.line) ∈ e.fields

def isAnyKeyword : Kind -> Bool
  | .anyKeyword => true
  | .unknownKeyword => true
  | .neverKeyword => true
  | .objectKeyword => true
  | .undefinedKeyword => true
  | .nullKeyword => true
  | _ => false

namespace Visit

/-- The node that a visit is about, without annotations or wrappers around it. -/
def node : Visit -> Cursor
  | .type c => c.unwrapType
  | .statement c => c.unwrapStatement.1
  | v => v.cursor

/-- What is visited has no counterpart: it is read to `todo`, or it is a type that is read
to the type of any value and no keyword for that. -/
def Degrades (path : String) : Visit -> Prop
  | .type c =>
    ((readType path c).value? = some .todo ∨ (readType path c).value? = some .obj) ∧
      isAnyKeyword c.unwrapType.kind = false
  | .element c => (readTupleElement path c).value? = some .todo
  | .heritage _ => False
  | .member c => (readMember path c).value? = some .todo
  | .statement c => (readStatement path c).value? = some (some .todo)

instance (path : String) : DecidablePred (Degrades path)
  | .type _ => inferInstanceAs (Decidable (_ ∧ _))
  | .element _ => inferInstanceAs (Decidable (_ = _))
  | .heritage _ => inferInstanceAs (Decidable False)
  | .member _ => inferInstanceAs (Decidable (_ = _))
  | .statement _ => inferInstanceAs (Decidable (_ = _))

/-- The visits that report what has no counterpart. An element of a tuple leaves that to
its type, and literal types and references do not report at all. -/
def isReporter : Visit -> Bool
  | .type c => c.unwrapType.kind != .literalType && c.unwrapType.kind != .typeReference
  | .element _ => false
  | _ => true

/-- The visits to elements of tuples with nothing in them. -/
def isEmptyElement : Visit -> Bool
  | .element c => isEmptyWrapper c
  | _ => false

end Visit

/-! ## Placeholders -/

def Decl.IsPlaceholder (d : Decl) : Prop :=
  d = .todo ∨ d = .obj

theorem isAnyKeyword_of_plainType? {kind : Kind} {d : Decl} (plain : plainType? kind = some d)
    (placeholder : d.IsPlaceholder) : isAnyKeyword kind = true := by
  unfold plainType? at plain
  split at plain <;> cases plain
  case h_4 | h_7 | h_8 | h_9 | h_10 | h_11 => rfl
  all_goals simp [Decl.IsPlaceholder, Decl.obj, Decl.unit] at placeholder

theorem plainType?_of_isAnyKeyword {kind : Kind} (h : isAnyKeyword kind = true) :
    plainType? kind = some .obj := by
  unfold isAnyKeyword at h
  split at h
  case h_7 => cases h
  all_goals rfl

section

variable {path : String} {c : Cursor} {d : Decl}

theorem Traced.value?_bind_ne {ω ε α β : Type} {x : Traced ω ε α} {f : α -> Traced ω ε β} {b : β}
    (h : ∀ a, (f a).value? ≠ some b) : (x >>= f).value? ≠ some b := by
  rw [Traced.value?_bind]
  intro value
  obtain ⟨a, -, last⟩ := Option.bind_eq_some_iff.mp value
  exact h a last

/-- A type that is put together from others is no placeholder, whatever these are. -/
theorem bareType_placeholder_cases (placeholder : d.IsPlaceholder)
    (value : (readBareType path c).value? = some d) :
    (c.kind = .typeReference ∧ readBareType path c = readPlainReference path c) ∨
    (c.kind = .literalType ∧ readBareType path c = .done (readLiteral c)) ∨
    (c.kind = .arrayType ∧ c.named = []) ∨
    ((c.kind ≠ .literalType ∧ c.kind ≠ .typeReference) ∧ typeAct path c = otherTypeAct path c ∧
      readBareType path c = readOtherType path c) := by
  have composed : ∀ {e : Decl}, ¬e.IsPlaceholder -> (.done e : Reading Decl).value? ≠ some d :=
    fun other same => other (Option.some.inj same ▸ placeholder)
  rw [readBareType] at value ⊢
  split at value
  case h_1 kind =>
      split at value
      case isTrue generic =>
          split at value
          · cases value
          · refine absurd value (Traced.value?_bind_ne fun _ => composed ?_)
            simp [Decl.IsPlaceholder, Decl.obj]
      case isFalse plain => exact .inl ⟨kind, if_neg plain⟩
  case h_2 kind =>
      split at value
      case h_1 named => exact .inr (.inr (.inl ⟨kind, named⟩))
      case h_2 =>
          refine absurd value (Traced.value?_bind_ne fun _ => composed ?_)
          simp [Decl.IsPlaceholder, Decl.obj]
  case h_3 | h_4 =>
      refine absurd value (Traced.value?_bind_ne fun _ => composed ?_)
      simp [Decl.IsPlaceholder, Decl.obj]
  case h_5 =>
      refine absurd value ?_
      refine Traced.value?_bind_ne fun _ => Traced.value?_bind_ne fun _ => composed ?_
      simp [Decl.IsPlaceholder, Decl.obj]
  case h_6 kind => exact .inr (.inl ⟨kind, rfl⟩)
  case h_7 reference _ _ _ _ literal =>
      refine .inr (.inr (.inr ⟨⟨literal, reference⟩, ?_, rfl⟩))
      simp only [typeAct, *]

/-! ## One report at each visit -/

/-- An event with an excerpt reports the place that the excerpt is of. -/
theorem exists_report {e : Event} (h : Event.excerptFields (.ofCursor path c) ⊆ e.fields) :
    ∃ event, (.note e : Reading Unit) = .note event ∧ event.Reports c := by
  refine ⟨e, rfl, h ?_, h ?_⟩
  · simp [Event.excerptFields, Excerpt.ofCursor]
  · simp [Event.excerptFields, Excerpt.ofCursor]

theorem report_of_otherType (placeholder : d.IsPlaceholder)
    (value : (readOtherType path c).value? = some d) (other : isAnyKeyword c.kind = false) :
    ∃ event, otherTypeAct path c = .note event ∧ event.Reports c := by
  unfold readOtherType at value
  unfold otherTypeAct
  cases plain : plainType? c.kind with
  | some type =>
      rw [plain] at value
      cases value
      rw [isAnyKeyword_of_plainType? plain placeholder] at other
      cases other
  | none =>
      cases isTypeAsObj c.kind with
      | true => exact exists_report (List.subset_cons_self _ _)
      | false => exact exists_report (List.subset_cons_self _ _)

theorem report_of_bareType (placeholder : d.IsPlaceholder)
    (value : (readBareType path c).value? = some d) (other : isAnyKeyword c.kind = false)
    (spoken : c.kind ≠ .literalType ∧ c.kind ≠ .typeReference) :
    ∃ event, typeAct path c = .note event ∧ event.Reports c := by
  rcases bareType_placeholder_cases placeholder value with
    ⟨kind, -⟩ | ⟨kind, -⟩ | ⟨kind, named⟩ | ⟨-, act, reader⟩
  · exact absurd kind spoken.2
  · exact absurd kind spoken.1
  · simp only [typeAct, kind, named]
    exact exists_report (List.subset_cons_self _ _)
  · rw [reader] at value
    rw [act]
    exact report_of_otherType placeholder value other

theorem report_of_plainMember (plain : ¬isAccessor c.kind = true)
    (value : (readPlainMember path c).value? = some .todo) :
    ∃ event, memberAct path c = .note event ∧ event.Reports c := by
  unfold readPlainMember at value
  split at value
  case h_1 kind =>
      simp only [memberAct, kind]
      unfold readIndexSignature at value
      split at value
      case h_1 unnamed =>
          rw [unnamed]
          exact exists_report (List.Subset.refl _)
      case h_2 =>
          exact absurd value (Traced.value?_bind_ne fun _ => Traced.value?_bind_ne (by rintro _ ⟨⟩))
  case h_9 =>
      have act : memberAct path c = noteUnsupported path "member" c := by
        unfold memberAct
        split <;> simp_all [isAccessor]
      rw [act]
      exact exists_report (List.subset_cons_self _ _)
  all_goals
    exact absurd value (Traced.value?_bind_ne (by rintro _ ⟨⟩))

theorem report_of_member (value : (readMember path c).value? = some .todo) :
    ∃ event, memberAct path c = .note event ∧ event.Reports c := by
  unfold readMember at value
  split at value
  case isTrue =>
      exact absurd value (Traced.value?_bind_ne fun _ => nofun)
  case isFalse plain => exact report_of_plainMember plain value

theorem readAlias_ne_todo : (readAlias path c).value? ≠ some .todo := by
  unfold readAlias
  split
  · nofun
  · refine Traced.value?_bind_ne fun type => ?_
    split <;> nofun

theorem report_of_variable {modifiers : Modifiers}
    (value : (readVariable path c modifiers).value? = some .todo) :
    ∃ event, variableAct path c = .note event ∧ event.Reports c := by
  rw [readVariable, ← declarators] at value
  rw [variableAct]
  generalize declarators c = bindings at value ⊢
  rcases bindings with _ | ⟨_, _ | ⟨_, _⟩⟩
  · exact exists_report (List.subset_cons_self _ _)
  · refine absurd value (Traced.value?_bind_ne ?_)
    rintro _ ⟨⟩
  · refine absurd value (Traced.value?_bind_ne fun _ => Traced.value?_bind_ne ?_)
    rintro _ ⟨⟩

theorem report_of_plainStatement (kept : ¬isTrivia c = true)
    (plain : ¬(c.kind == .moduleDeclaration) = true) {modifiers : Modifiers}
    (value : (readPlainStatement path c modifiers).value? = some .todo) :
    ∃ event, statementAct path c = .note event ∧ event.Reports c := by
  have module : ¬c.kind = .moduleDeclaration := mt beq_iff_eq.mpr plain
  simp only [statementAct, if_neg kept]
  unfold readPlainStatement at value
  split at value
  case h_1 | h_2 | h_6 =>
      exact absurd value (Traced.value?_bind_ne (by rintro _ ⟨⟩))
  case h_3 | h_7 => cases value
  case h_4 => exact absurd value readAlias_ne_todo
  case h_5 kind =>
      simp only [kind]
      exact report_of_variable value
  case h_8 kind | h_9 kind | h_10 kind =>
      simp only [kind]
      exact exists_report (List.subset_cons_self _ _)
  case h_11 =>
      simp only [*]
      exact exists_report (List.subset_cons_self _ _)

theorem nestModules_ne_todo (entries : List Decl) (names : List String) :
    nestModules entries names ≠ .todo := by
  fun_cases nestModules entries names <;> nofun

theorem report_of_bareStatement (value : (readBareStatement path c).value? = some (some .todo)) :
    ∃ event, statementAct path c = .note event ∧ event.Reports c := by
  unfold readBareStatement at value
  split at value
  case isTrue => cases value
  case isFalse kept =>
      split at value
      case isTrue =>
          rw [readModule_eq, Traced.value?_map, Traced.value?_map] at value
          obtain ⟨d, read, same⟩ := Option.map_eq_some_iff.mp value
          obtain ⟨entries, -, rfl⟩ := Option.map_eq_some_iff.mp read
          exact absurd (Option.some.inj same) (nestModules_ne_todo _ _)
      case isFalse plain =>
          rw [Traced.value?_map] at value
          obtain ⟨d, read, same⟩ := Option.map_eq_some_iff.mp value
          cases same
          exact report_of_plainStatement kept plain read

theorem report_of_statement (value : (readStatement path c).value? = some (some .todo)) :
    ∃ event, statementAct path c.unwrapStatement.1 = .note event ∧
      event.Reports c.unwrapStatement.1 := by
  rw [readStatement_eq, Traced.value?_map] at value
  obtain ⟨found, read, same⟩ := Option.map_eq_some_iff.mp value
  obtain ⟨d, rfl, marked⟩ := Option.map_eq_some_iff.mp same
  have todo : d = .todo := by
    unfold Decl.declaredAs at marked
    split at marked
    · cases marked
    · exact marked
  rw [todo] at read
  exact report_of_bareStatement read

end

/-- A visit to something that has no counterpart notes that, with its node and its line. -/
theorem Visit.report_of_degrades {path : String} {v : Visit} (degrades : v.Degrades path)
    (reporter : v.isReporter = true) :
    ∃ event, v.act path = .note event ∧ event.Reports v.node := by
  cases v with
  | type c =>
      obtain ⟨todo | obj, other⟩ := degrades
      · rw [readType] at todo
        exact report_of_bareType (.inl rfl) todo other (by simpa [isReporter] using reporter)
      · rw [readType] at obj
        exact report_of_bareType (.inr rfl) obj other (by simpa [isReporter] using reporter)
  | element c => cases reporter
  | heritage c => exact degrades.elim
  | member c => exact report_of_member degrades
  | statement c => exact report_of_statement degrades

/-! ## Where nothing is said -/

section

variable {path : String} {c : Cursor} {d : Decl}

theorem readPlainReference_of_value? (value : (readPlainReference path c).value? = some d) :
    readPlainReference path c = .done d ∧ d = .named (referenceName c) := by
  unfold readPlainReference at value ⊢
  split at value
  · cases value
  · cases value
    exact ⟨rfl, rfl⟩

theorem readLiteral_cases (c : Cursor) : (∃ text, readLiteral c = .literal text) ∨
    readLiteral c = .obj := by
  unfold readLiteral
  split
  · split
    · exact .inl ⟨_, rfl⟩
    · exact .inr rfl
  · exact .inr rfl

/-- Where a type has no counterpart and that is not reported, it is read to the type of any
value without an event, and it is a literal or a reference by that name. -/
theorem unreported_type (placeholder : d.IsPlaceholder) (value : (readType path c).value? = some d)
    (silent : (Visit.type c).isReporter = false) :
    readType path c = .done .obj ∧
      (c.unwrapType.kind = .literalType ∨
        c.unwrapType.kind = .typeReference ∧ referenceName c.unwrapType = "obj") := by
  have silent : ¬(c.unwrapType.kind ≠ .literalType ∧ c.unwrapType.kind ≠ .typeReference) := by
    simpa [Visit.isReporter] using silent
  rw [readType] at value ⊢
  rcases bareType_placeholder_cases placeholder value with
    ⟨kind, reader⟩ | ⟨kind, reader⟩ | ⟨kind, -⟩ | ⟨spoken, -⟩
  · rw [reader] at value ⊢
    obtain ⟨read, rfl⟩ := readPlainReference_of_value? value
    rcases placeholder with todo | obj
    · cases todo
    · rw [read, obj]
      exact ⟨rfl, .inr ⟨kind, Decl.named.inj obj⟩⟩
  · rw [reader] at value ⊢
    cases value
    rcases readLiteral_cases c.unwrapType with ⟨text, literal⟩ | obj
    · rw [literal] at placeholder
      simp [Decl.IsPlaceholder, Decl.obj] at placeholder
    · rw [obj]
      exact ⟨rfl, .inl kind⟩
  · exact absurd (by simp [kind]) silent
  · exact absurd spoken silent

theorem isAnyKeyword_eq_false_of_todo (value : (readType path c).value? = some .todo) :
    isAnyKeyword c.unwrapType.kind = false := by
  rw [readType] at value
  cases keyword : isAnyKeyword c.unwrapType.kind with
  | false => rfl
  | true =>
      rcases bareType_placeholder_cases (.inl rfl) value with
        ⟨kind, -⟩ | ⟨kind, -⟩ | ⟨kind, -⟩ | ⟨-, -, reader⟩
      · rw [kind] at keyword
        cases keyword
      · rw [kind] at keyword
        cases keyword
      · rw [kind] at keyword
        cases keyword
      · rw [reader, readOtherType, plainType?_of_isAnyKeyword keyword] at value
        cases value

/-- A type that is read to `todo` is one that reports. -/
theorem reports_of_todo (value : (readType path c).value? = some .todo) :
    (Visit.type c).Degrades path ∧ (Visit.type c).isReporter = true := by
  refine ⟨⟨.inl value, isAnyKeyword_eq_false_of_todo value⟩, ?_⟩
  cases reporter : (Visit.type c).isReporter with
  | true => rfl
  | false =>
      obtain ⟨read, -⟩ := unreported_type (.inl rfl) value reporter
      rw [read] at value
      cases value

theorem readTupleElement_of_todo (value : (readTupleElement path c).value? = some .todo) :
    (∃ t, elementType? c = some t ∧ (readType path t).value? = some .todo) ∨
      isEmptyWrapper c = true := by
  rw [readTupleElement_eq] at value
  unfold elementType?
  split at value
  case isTrue wrapper =>
      cases named : c.named with
      | nil =>
          right
          rw [isEmptyWrapper, wrapper, named]
          rfl
      | cons inner rest =>
          rw [named] at value
          exact .inl ⟨inner, if_pos wrapper, value⟩
  case isFalse other =>
      rw [if_neg other]
      split at value
      case isTrue member =>
          unfold readField at value
          cases field : c.field? "type" with
          | none =>
              rw [field] at value
              cases value
          | some t =>
              rw [field] at value
              exact .inl ⟨t, if_pos member, value⟩
      case isFalse bare => exact .inl ⟨c, if_neg bare, value⟩

/-- An element with nothing in it becomes `todo` without an event. -/
theorem readTupleElement_of_isEmptyWrapper (h : isEmptyWrapper c = true) :
    readTupleElement path c = .done .todo := by
  obtain ⟨wrapper, empty⟩ := Bool.and_eq_true_iff.mp h
  rw [readTupleElement_eq, if_pos wrapper, List.isEmpty_iff.mp empty]
  rfl

end

/-! ## The log of a file -/

theorem sublistForall₂_flatMap {α β : Type} {R : α -> β -> Prop} {p : α -> Bool} {f : α -> List β}
    {as : List α} (h : ∀ a ∈ as, p a = true -> ∃ b, f a = [b] ∧ R a b) :
    List.SublistForall₂ R (as.filter p) (as.flatMap f) := by
  induction as with
  | nil => exact .nil
  | cons a as ih =>
      obtain ⟨first, rest⟩ := List.forall_mem_cons.mp h
      rw [List.flatMap_cons, List.filter_cons]
      split
      case isTrue picked =>
          obtain ⟨b, only, related⟩ := first picked
          rw [only]
          exact .cons related (ih rest)
      case isFalse =>
          obtain ⟨bs, related, inside⟩ := List.sublistForall₂_iff.mp (ih rest)
          exact List.sublistForall₂_iff.mpr
            ⟨bs, related, inside.trans (List.sublist_append_right _ _)⟩

theorem getElem?_of_takeWhile {α : Type} {p : α -> Bool} {as : List α} {i : Nat} {a : α}
    (here : (as.takeWhile p)[i]? = some a) : as[i]? = some a := by
  have bound : i < (as.takeWhile p).length := (List.getElem?_eq_some_iff.mp here).choose
  have whole : as.takeWhile p ++ as.dropWhile p = as := List.takeWhile_append_dropWhile
  rw [← whole, List.getElem?_append_left bound, here]

theorem getElem?_takeWhile_succ {α : Type} {p : α -> Bool} {as : List α} {i : Nat} {a b : α}
    (here : (as.takeWhile p)[i]? = some a) (next : as[i + 1]? = some b) (hb : p b = true) :
    (as.takeWhile p)[i + 1]? = some b := by
  induction as generalizing i with
  | nil => cases next
  | cons x as ih =>
      rw [List.takeWhile_cons] at here ⊢
      split at here
      case isFalse => cases here
      case isTrue holds =>
          rw [if_pos holds]
          cases i with
          | succ i => exact ih here next
          | zero =>
              cases as with
              | nil => cases next
              | cons y ys =>
                  cases next
                  rw [List.takeWhile_cons, if_pos hb]
                  rfl

namespace Visit

variable {path : String}

theorem type_made {tree : Node} {i : Nat} {c t : Cursor} {d : Decl}
    (element : (made path (ofFile tree))[i]? = some (.element c)) (type : elementType? c = some t)
    (value : (readType path t).value? = some d) :
    (made path (ofFile tree))[i + 1]? = some (.type t) := by
  have next := typesFollow_ofFile tree i c t (getElem?_of_takeWhile element) type
  have first : Visit.type t ∈ [Visit.type t].flatMap walk := by
    rw [List.flatMap_singleton, walk_eq]
    exact List.mem_cons_self
  refine getElem?_takeWhile_succ element next ?_
  rw [(walks_type path t).cause?_eq_none value first]
  rfl

end Visit

theorem reports_sublist (path : String) (tree : Node) :
    List.SublistForall₂ (fun v e => Event.Reports e v.node)
      ((Visit.made path (Visit.ofFile tree)).filter fun v =>
        decide (v.Degrades path) && v.isReporter)
      (readDeclarations path tree).events := by
  rw [events_readDeclarations]
  refine sublistForall₂_flatMap fun v _ picked => ?_
  obtain ⟨degrades, reporter⟩ := Bool.and_eq_true_iff.mp picked
  obtain ⟨event, act, reports⟩ := Visit.report_of_degrades (of_decide_eq_true degrades) reporter
  exact ⟨event, by rw [act]; rfl, reports⟩

/-- A visit where a `todo` comes from reports it or is one to an empty element. -/
theorem Visit.report_of_yieldsTodo {path : String} {v : Visit} (todo : v.yieldsTodo path = true) :
    (decide (v.Degrades path) && v.isReporter) = true ∨ v.isEmptyElement = true := by
  cases v with
  | type c =>
      obtain ⟨degrades, reporter⟩ := reports_of_todo (of_decide_eq_true todo)
      exact .inl (Bool.and_eq_true_iff.mpr ⟨decide_eq_true degrades, reporter⟩)
  | element c => exact .inr todo
  | heritage c => cases todo
  | member c => exact .inl (Bool.and_eq_true_iff.mpr ⟨todo, rfl⟩)
  | statement c => exact .inl (Bool.and_eq_true_iff.mpr ⟨todo, rfl⟩)

theorem countP_le_add {α : Type} {p q r : α -> Bool} (as : List α)
    (h : ∀ a, r a = true -> p a = true ∨ q a = true) :
    as.countP r ≤ as.countP p + as.countP q := by
  induction as with
  | nil => exact Nat.le_refl 0
  | cons a as ih =>
      rw [List.countP_cons, List.countP_cons, List.countP_cons]
      by_cases hr : r a = true
      · rcases h a hr with hp | hq
        · rw [if_pos hr, if_pos hp]
          omega
        · rw [if_pos hr, if_pos hq]
          omega
      · rw [if_neg hr]
        omega

theorem made_of_value? {path : String} {tree : Node} {ds : List Decl}
    (read : (readDeclarations path tree).value? = some ds) :
    Visit.made path (Visit.ofFile tree) = Visit.ofFile tree := by
  refine List.takeWhile_eq_self_iff.mpr fun v hv => ?_
  rw [(walks_declarations path tree).cause?_eq_none read hv]
  rfl

theorem count_todo_le {path : String} {tree : Node} {ds : List Decl}
    (read : (readDeclarations path tree).value? = some ds) :
    (ds.flatMap Decl.parts).count .todo ≤
      (Visit.made path (Visit.ofFile tree)).countP
          (fun v => decide (v.Degrades path) && v.isReporter) +
        (Visit.made path (Visit.ofFile tree)).countP Visit.isEmptyElement := by
  rw [← Decl.todosIn_eq_count, made_of_value? read]
  exact Nat.le_trans (todosIn_readDeclarations_le read)
    (countP_le_add _ fun _ => Visit.report_of_yieldsTodo)

/-- The log of a file is what its visits note. Each visit to a type, a member or a statement
that has no counterpart has an event of its own with the node and its line, apart from
literal types and references. In what is read, `todo` occurs no more often than there are
such visits and elements with nothing in them. An element of a tuple that becomes `todo` is
followed by the visit to its type, which has such an event, or it has nothing in it. What is
not reported is read without an event: a literal that is no string or a reference to `obj`,
and an element with nothing in it. -/
theorem readDeclarations_reports (path : String) (tree : Node) :
    let made := Visit.made path (Visit.ofFile tree)
    (readDeclarations path tree).events = made.flatMap (fun v => (v.act path).events) ∧
    List.SublistForall₂ (fun v e => Event.Reports e v.node)
      (made.filter fun v => decide (v.Degrades path) && v.isReporter)
      (readDeclarations path tree).events ∧
    (∀ ds, (readDeclarations path tree).value? = some ds ->
      (ds.flatMap Decl.parts).count .todo ≤
        made.countP (fun v => decide (v.Degrades path) && v.isReporter) +
          made.countP Visit.isEmptyElement) ∧
    (∀ i c, made[i]? = some (.element c) -> (Visit.element c).Degrades path ->
      (∃ t, made[i + 1]? = some (.type t) ∧ elementType? c = some t ∧
        (Visit.type t).Degrades path ∧ (Visit.type t).isReporter = true) ∨
      isEmptyWrapper c = true) ∧
    (∀ c, (Visit.type c).Degrades path -> (Visit.type c).isReporter = false ->
      readType path c = .done .obj ∧
        (c.unwrapType.kind = .literalType ∨
          c.unwrapType.kind = .typeReference ∧ referenceName c.unwrapType = "obj")) ∧
    ∀ c, isEmptyWrapper c = true -> readTupleElement path c = .done .todo := by
  refine ⟨events_readDeclarations path tree, reports_sublist path tree, ?_, ?_, ?_, ?_⟩
  · exact fun ds read => count_todo_le read
  · intro i c element todo
    rcases readTupleElement_of_todo todo with ⟨t, type, value⟩ | empty
    · exact .inl ⟨t, Visit.type_made element type value, type, reports_of_todo value⟩
    · exact .inr empty
  · rintro c ⟨todo | obj, -⟩ silent
    · exact unreported_type (.inl rfl) todo silent
    · exact unreported_type (.inr rfl) obj silent
  · exact fun c empty => readTupleElement_of_isEmptyWrapper empty

def annotated (type : Node) : Node :=
  spelled "type_annotation" (some "type") 1 "" [type]

def variableOf (type : Node) : Node :=
  spelled "program" none 1 "" [
    spelled "ambient_declaration" none 1 "" [
      spelled "variable_declaration" none 1 "" [
        spelled "variable_declarator" none 1 "" [
          spelled "identifier" (some "name") 1 "v" [],
          annotated type]]]]

def oneType : Node :=
  spelled "literal_type" none 1 "1" [spelled "number" none 1 "1" []]

/-- A tuple of a type that nothing is known about, an optional element with nothing in it
and a number. -/
def oddTuple : Node :=
  spelled "tuple_type" none 1 "[*, ?, 1]" [
    spelled "existential_type" none 1 "*" [], spelled "optional_type" none 1 "?" [], oneType]

def oddElement (i : Fin 3) : Cursor :=
  ⟨some "tuple_type", oddTuple.children.get i⟩

def oddVariable : Decl :=
  .var ⟨true, "v", .tuple [.todo, .todo, .obj]⟩

theorem oddTuple_reports :
    let made := Visit.made "odd.d.ts" (Visit.ofFile (variableOf oddTuple))
    (readDeclarations "odd.d.ts" (variableOf oddTuple)).events =
      [.unsupported "type" ⟨"odd.d.ts", "existential_type", 1, "*"⟩] ∧
    ((readDeclarations "odd.d.ts" (variableOf oddTuple)).value? = some [oddVariable] ∧
      ([oddVariable].flatMap Decl.parts).count .todo ≤
        made.countP (fun v => decide (v.Degrades "odd.d.ts") && v.isReporter) +
          made.countP Visit.isEmptyElement) ∧
    (made[2]? = some (.element (oddElement 0)) ∧
      (Visit.element (oddElement 0)).Degrades "odd.d.ts" ∧
      ∃ t, made[3]? = some (.type t) ∧ (Visit.type t).Degrades "odd.d.ts") ∧
    ((Visit.type (oddElement 2)).Degrades "odd.d.ts" ∧
      readType "odd.d.ts" (oddElement 2) = .done .obj) ∧
    (isEmptyWrapper (oddElement 1) = true ∧
      readTupleElement "odd.d.ts" (oddElement 1) = .done .todo) := by
  obtain ⟨-, -, count, elements, types, wrappers⟩ :=
    readDeclarations_reports "odd.d.ts" (variableOf oddTuple)
  have read : (readDeclarations "odd.d.ts" (variableOf oddTuple)).value? = some [oddVariable] := by
    decide +kernel
  have element : (Visit.made "odd.d.ts" (Visit.ofFile (variableOf oddTuple)))[2]? =
      some (.element (oddElement 0)) := by
    with_unfolding_all rfl
  have todo : (Visit.element (oddElement 0)).Degrades "odd.d.ts" := by decide +kernel
  have obj : (Visit.type (oddElement 2)).Degrades "odd.d.ts" := by decide +kernel
  have empty : isEmptyWrapper (oddElement 1) = true := by decide +kernel
  refine ⟨by decide +kernel, ⟨read, count _ read⟩, ⟨element, todo, ?_⟩, ⟨obj, ?_⟩,
    empty, wrappers _ empty⟩
  · obtain ⟨t, type, -, degrades, -⟩ | full := elements 2 _ element todo
    · exact ⟨t, type, degrades⟩
    · exact absurd full (by decide +kernel)
  · exact (types _ obj (by decide +kernel)).1

/-- A number as a type becomes the type of any value, and the log says nothing. -/
theorem oneType_unreported :
    (readDeclarations "<source>" (variableOf oneType)).value? = some [.var ⟨true, "v", .obj⟩] ∧
    (readDeclarations "<source>" (variableOf oneType)).events = [] ∧
    ¬∀ v ∈ Visit.made "<source>" (Visit.ofFile (variableOf oneType)), v.Degrades "<source>" ->
      ∃ e ∈ (readDeclarations "<source>" (variableOf oneType)).events, e.Reports v.node := by
  have silent : (readDeclarations "<source>" (variableOf oneType)).events = [] := by
    decide +kernel
  have visited : Visit.type ⟨some "variable_declarator", annotated oneType⟩ ∈
      Visit.made "<source>" (Visit.ofFile (variableOf oneType)) :=
    List.mem_iff_getElem?.mpr ⟨1, by with_unfolding_all rfl⟩
  refine ⟨by decide +kernel, silent, fun reported => ?_⟩
  obtain ⟨e, he, -⟩ := reported _ visited (by decide +kernel)
  rw [silent] at he
  cases he

end Bindgen
