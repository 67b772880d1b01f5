import Bindgen.Proofs.Reading.Places

/-! # What the readers of types yield

`Traced.Ends` says how a computation can end, and `Reads` how a reader can: with
a value of the expected form, or with a fault at or below the place it reads
from. Every reader of types yields a type expression.
-/

namespace Bindgen

open Syntax

namespace Traced

variable {ω ε α β : Type} {bad : ε -> Prop}

/-- The computation yields a `good` value or fails for a `bad` cause. -/
structure Ends (x : Traced ω ε α) (bad : ε -> Prop) (good : α -> Prop) : Prop where
  ok : ∀ a, x.outcome = .ok a -> good a
  error : ∀ e, x.outcome = .error e -> bad e

theorem ends_done {good : α -> Prop} {a : α} (h : good a) :
    (done a : Traced ω ε α).Ends bad good where
  ok := by
    rintro _ ⟨⟩
    exact h
  error := nofun

theorem ends_fail {good : α -> Prop} {e : ε} (h : bad e) :
    (fail e : Traced ω ε α).Ends bad good where
  ok := nofun
  error := by
    rintro _ ⟨⟩
    exact h

theorem Ends.bind {x : Traced ω ε α} {f : α -> Traced ω ε β} {mid : α -> Prop}
    {good : β -> Prop} (hx : x.Ends bad mid) (hf : ∀ a, mid a -> (f a).Ends bad good) :
    (x >>= f).Ends bad good := by
  obtain ⟨events, outcome⟩ := x
  cases outcome with
  | ok a =>
      have inside := hf a (hx.ok a rfl)
      exact ⟨inside.ok, inside.error⟩
  | error e =>
      refine ⟨nofun, ?_⟩
      rintro _ ⟨⟩
      exact hx.error e rfl

theorem Ends.imp {x : Traced ω ε α} {worse : ε -> Prop} {good fine : α -> Prop}
    (h : x.Ends bad good) (hbad : ∀ e, bad e -> worse e) (hgood : ∀ a, good a -> fine a) :
    x.Ends worse fine where
  ok a ha := hgood a (h.ok a ha)
  error e he := hbad e (h.error e he)

theorem ends_note_bind {event : ω} {f : Unit -> Traced ω ε β} {good : β -> Prop}
    (h : (f ()).Ends bad good) : (note event >>= f).Ends bad good := by
  have noted : (note event : Traced ω ε Unit).Ends bad fun _ => True := ⟨fun _ _ => trivial, nofun⟩
  exact noted.bind fun _ _ => h

theorem ends_traverseMem {good : β -> Prop} {as : List α} {f : (a : α) -> a ∈ as -> Traced ω ε β}
    (h : ∀ a ha, (f a ha).Ends bad good) :
    (traverseMem as f).Ends bad fun bs => ∀ b ∈ bs, good b := by
  induction as with
  | nil => exact ends_done nofun
  | cons a as ih =>
      refine (h a List.mem_cons_self).bind fun b hb => ?_
      refine (ih fun a' ha' => h a' (List.mem_cons_of_mem a ha')).bind fun bs hbs => ?_
      exact ends_done (List.forall_mem_cons.mpr ⟨hb, hbs⟩)

theorem ends_traverse {good : β -> Prop} {as : List α} {f : α -> Traced ω ε β}
    (h : ∀ a ∈ as, (f a).Ends bad good) :
    (traverse f as).Ends bad fun bs => ∀ b ∈ bs, good b := by
  rw [← traverseMem_eq_traverse]
  exact ends_traverseMem h

theorem ends_fold {good : β -> Prop} {as : List α} {f : β -> α -> Traced ω ε β} {b : β}
    (start : good b) (step : ∀ b a, a ∈ as -> good b -> (f b a).Ends bad good) :
    (fold f b as).Ends bad good := by
  induction as generalizing b with
  | nil => exact ends_done start
  | cons a as ih =>
      refine (step b a List.mem_cons_self start).bind fun b' hb' => ?_
      exact ih hb' fun b a' ha' => step b a' (List.mem_cons_of_mem a ha')

/-- If the computation yields a value, then one with the property. -/
def Yields (x : Traced ω ε α) (good : α -> Prop) : Prop :=
  x.Ends (fun _ => True) good

/-- What comes last decides. -/
theorem yields_bind {x : Traced ω ε α} {f : α -> Traced ω ε β} {good : β -> Prop}
    (h : ∀ a, (f a).Yields good) : (x >>= f).Yields good := by
  have first : x.Ends (fun _ => True) fun _ => True := ⟨fun _ _ => trivial, fun _ _ => trivial⟩
  exact first.bind fun a _ => h a

end Traced

/-- Reading at the place ends well, or with a fault at or below it. -/
def Reads {α : Type} (path : String) (c : Cursor) (x : Reading α) (good : α -> Prop) : Prop :=
  x.Ends (Fault path c) good

theorem Reads.below {α : Type} {path : String} {p c : Cursor} {x : Reading α} {good : α -> Prop}
    (h : Reads path p x good) (hp : p ∈ c.places) : Reads path c x good :=
  Traced.Ends.imp h (fun _ => Fault.below hp) fun _ => id

theorem Reads.imp {α : Type} {path : String} {c : Cursor} {x : Reading α} {good fine : α -> Prop}
    (h : Reads path c x good) (hgood : ∀ a, good a -> fine a) : Reads path c x fine :=
  Traced.Ends.imp h (fun _ => id) hgood

/-! ## Type expressions -/

def Decl.IsName (d : Decl) : Prop :=
  ∃ name, d = .named name

inductive Decl.TypeExpr : Decl -> Prop
  | named (name : String) : TypeExpr (.named name)
  | todo : TypeExpr .todo
  | self : TypeExpr .self
  | literal (text : String) : TypeExpr (.literal text)
  | generic (name : String) {arguments : List Decl}
      (types : ∀ a ∈ arguments, TypeExpr a) : TypeExpr (.generic (.named name) arguments)
  | array {element : Decl} (type : TypeExpr element) : TypeExpr (.array element)
  | union (optional : Bool) {alternatives : List Decl}
      (types : ∀ a ∈ alternatives, TypeExpr a) : TypeExpr (.union optional alternatives)
  | tuple {elements : List Decl} (types : ∀ e ∈ elements, TypeExpr e) : TypeExpr (.tuple elements)
  | function {typeParams : List Decl} {params : List Param} {result : Decl}
      (names : ∀ p ∈ typeParams, p.IsName) (types : ∀ p ∈ params, TypeExpr p.type)
      (type : TypeExpr result) :
      TypeExpr (.function ⟨none, false, none, typeParams, params, result⟩)

theorem typeExpr_plainType? {kind : Kind} {type : Decl} (h : plainType? kind = some type) :
    type.TypeExpr := by
  unfold plainType? at h
  split at h <;> cases h
  all_goals first | exact .named _ | exact .self

theorem typeExpr_readLiteral (c : Cursor) : (readLiteral c).TypeExpr := by
  unfold readLiteral
  split
  · split
    · exact .literal _
    · exact .named _
  · exact .named _

theorem isName_of_mem_readTypeParams {c : Cursor} {p : Decl} (h : p ∈ readTypeParams c) :
    p.IsName := by
  obtain ⟨node, -, rfl⟩ := List.mem_map.mp h
  exact ⟨_, rfl⟩

section

variable (path : String) {c : Cursor}

theorem reads_otherType : Reads path c (readOtherType path c) Decl.TypeExpr := by
  unfold readOtherType
  split
  case h_1 type plain => exact Traced.ends_done (typeExpr_plainType? plain)
  case h_2 =>
      split
      · exact Traced.ends_note_bind (Traced.ends_done (.named _))
      · exact Traced.ends_note_bind (Traced.ends_done .todo)

theorem reads_plainReference (kind : c.kind = .typeReference)
    (plain : ¬(c.type == "generic_type") = true) :
    Reads path c (readPlainReference path c) Decl.TypeExpr := by
  have fits := Cursor.fits_of_kind kind nofun
  unfold readPlainReference
  split
  case h_1 blank =>
      have nameless : c.isNameless = true := by
        simp_all [Cursor.isNameless, Kind.fits, String.isEmpty_iff]
      exact Traced.ends_fail (.here (.unnamed nameless rfl))
  case h_2 => exact Traced.ends_done (.named _)

end

/-! ## The readers of types

Each reader is shown to read type expressions if all types of smaller places
are read that way. -/

section

variable (path : String) {c : Cursor} {n : Nat}
  (ih : ∀ p : Cursor, p.size < n -> Reads path p (readType path p) Decl.TypeExpr)

include ih

theorem reads_param (hn : c.size ≤ n) :
    Reads path c (readParam path c) fun p => p.type.TypeExpr := by
  rw [readParam]
  split
  case h_1 =>
      have obj : Reads path c (.done .obj) Decl.TypeExpr := Traced.ends_done (.named _)
      exact obj.bind fun _ h => Traced.ends_done h
  case h_2 type field =>
      have := Cursor.size_lt_of_field? field
      have inside := (ih type (by omega)).below (Cursor.mem_places_of_field? field)
      exact inside.bind fun _ h => Traced.ends_done h

theorem reads_params (hn : c.size ≤ n) :
    Reads path c (readParams path c) fun ps => ∀ p ∈ ps, p.type.TypeExpr := by
  rw [readParams]
  refine Traced.ends_traverseMem fun p hp => ?_
  have := size_lt_of_mem_parameters hp
  exact (reads_param path ih (by omega)).below (mem_places_of_parameters hp)

theorem reads_result (hn : c.size ≤ n) : Reads path c (readResult path c) Decl.TypeExpr := by
  rw [readResult]
  split
  case h_1 => exact Traced.ends_done (.named _)
  case h_2 type result =>
      have := size_lt_of_result? result
      exact (ih type (by omega)).below (mem_places_of_result? result)

theorem reads_tupleElement (hn : c.size < n) :
    Reads path c (readTupleElement path c) Decl.TypeExpr := by
  rw [readTupleElement]
  split
  · split
    case h_1 => exact Traced.ends_done .todo
    case h_2 inner rest named =>
        have := Cursor.size_lt_of_named_eq_cons named
        exact (ih inner (by omega)).below
          (Cursor.mem_places_of_named (named ▸ List.mem_cons_self))
  · split
    · split
      case h_1 => exact Traced.ends_done (.named _)
      case h_2 type field =>
          have := Cursor.size_lt_of_field? field
          exact (ih type (by omega)).below (Cursor.mem_places_of_field? field)
    · exact ih c hn

theorem reads_bareType (hn : c.size ≤ n) : Reads path c (readBareType path c) Decl.TypeExpr := by
  rw [readBareType]
  split
  case h_1 kind =>
      split
      case isTrue generic =>
          split
          case isTrue unnamed =>
              have nameless : c.isNameless = true := by simp [Cursor.isNameless, generic, unnamed]
              exact Traced.ends_fail (.here (.unnamed nameless rfl))
          case isFalse =>
              have each : ∀ a ∈ c.fieldNamed "type_arguments",
                  Reads path c (readType path a) Decl.TypeExpr := by
                intro a ha
                have := Cursor.size_lt_of_mem_fieldNamed ha
                exact (ih a (by omega)).below (Cursor.mem_places_of_fieldNamed ha)
              refine (Traced.ends_traverseMem each).bind fun _ types => ?_
              exact Traced.ends_done (.generic (c.fieldText "name") types)
      case isFalse plain => exact reads_plainReference path kind plain
  case h_2 =>
      split
      case h_1 => exact Traced.ends_note_bind (Traced.ends_done .todo)
      case h_2 element rest named =>
          have := Cursor.size_lt_of_named_eq_cons named
          have inside := (ih element (by omega)).below
            (Cursor.mem_places_of_named (named ▸ List.mem_cons_self))
          exact inside.bind fun _ type => Traced.ends_done (.array type)
  case h_3 =>
      have each : ∀ a ∈ alternatives c, Reads path c (readType path a) Decl.TypeExpr := by
        intro a ha
        have := size_lt_of_mem_alternatives ha
        exact (ih a (by omega)).below (mem_places_of_alternatives ha)
      refine (Traced.ends_traverseMem each).bind fun _ types => ?_
      exact Traced.ends_done (.union _ fun a ha => types a (Decl.mem_of_mem_dedupe ha))
  case h_4 =>
      have each : ∀ e ∈ c.named, Reads path c (readTupleElement path e) Decl.TypeExpr := by
        intro e he
        have := Cursor.size_lt_of_mem_named he
        exact (reads_tupleElement path ih (by omega)).below (Cursor.mem_places_of_named he)
      refine (Traced.ends_traverseMem each).bind fun _ types => ?_
      exact Traced.ends_done (.tuple types)
  case h_5 =>
      refine Traced.Ends.bind (reads_params path ih hn) fun _ types => ?_
      refine Traced.Ends.bind (reads_result path ih hn) fun _ type => ?_
      exact Traced.ends_done (.function (fun _ => isName_of_mem_readTypeParams) types type)
  case h_6 => exact Traced.ends_done (typeExpr_readLiteral c)
  case h_7 => exact reads_otherType path

end

/-- Every type is read to a type expression. -/
theorem reads_type (path : String) (c : Cursor) :
    Reads path c (readType path c) Decl.TypeExpr := by
  have smaller : ∀ p : Cursor, p.size < c.size -> Reads path p (readType path p) Decl.TypeExpr :=
    fun p _ => reads_type path p
  rw [readType]
  exact (reads_bareType path smaller c.size_unwrapType_le).below c.unwrapType_mem_places
termination_by c.size

theorem reads_field (path : String) (c : Cursor) (name : String) {default : Decl}
    {good : Decl -> Prop} (hdefault : good default) (htype : ∀ d, d.TypeExpr -> good d) :
    Reads path c (readField path c name default) good := by
  unfold readField
  split
  case h_1 => exact Traced.ends_done hdefault
  case h_2 type field =>
      exact ((reads_type path type).below (Cursor.mem_places_of_field? field)).imp htype

end Bindgen
