import Mathlib.Data.List.Basic
import Bindgen.Proofs.Reading.Declarations

/-! # Accessors

A body has one member for each node that is no accessor. Of the accessors of one
name the first stands for all, and it does so whether they are static or not:
where a name has accessors on both sides, one side is lost.
-/

namespace Bindgen

open Syntax

/-! ## Folding by a key -/

section

variable {κ : Type} [DecidableEq κ]

/-- The node is an accessor behind another one of the same key. -/
def isFolded (key : Cursor -> κ) (before : List Cursor) (c : Cursor) : Bool :=
  isAccessor c.kind && before.any fun b => isAccessor b.kind && decide (key b = key c)

/-- The nodes that have members of their own, with their positions: all but the
accessors behind another one of the same key. -/
def ownNodes (key : Cursor -> κ) (nodes : List Cursor) : List (Cursor × Nat) :=
  nodes.zipIdx.filter fun x => !isFolded key (nodes.take x.2) x.1

def ownNodesAfter (key : Cursor -> κ) (before nodes : List Cursor) : List (Cursor × Nat) :=
  (nodes.zipIdx before.length).filter fun x =>
    !isFolded key ((before ++ nodes).take x.2) x.1

theorem ownNodesAfter_cons (key : Cursor -> κ) (before : List Cursor) (c : Cursor)
    (nodes : List Cursor) :
    ownNodesAfter key before (c :: nodes) =
      (if isFolded key before c then [] else [(c, before.length)]) ++
        ownNodesAfter key (before ++ [c]) nodes := by
  have here : (before ++ c :: nodes).take before.length = before := List.take_left
  have length : (before ++ [c]).length = before.length + 1 := List.length_append
  rw [ownNodesAfter, ownNodesAfter, List.zipIdx_cons, List.filter_cons, here, length,
    ← List.append_cons]
  cases isFolded key before c <;> rfl

theorem isFolded_eq_true_iff {key : Cursor -> κ} {before : List Cursor} {c : Cursor} :
    isFolded key before c = true ↔
      isAccessor c.kind = true ∧ ∃ b ∈ before, isAccessor b.kind = true ∧ key b = key c := by
  simp [isFolded]

end

def readMember (path : String) (c : Cursor) : Reading Decl :=
  if isAccessor c.kind then do .done (.property (← readAccessor path c))
  else readPlainMember path c

/-- The members are those of a body in which the accessors of one key are folded
into the first of them. -/
def FoldsAccessors {κ : Type} [DecidableEq κ] (path : String) (key : Cursor -> κ)
    (nodes : List Cursor) (members : List Decl) : Prop :=
  (ownNodes key nodes).map (fun x => (readMember path x.1).outcome) = members.map .ok

/-- What tells the accessors of a class apart: the name and the side. -/
def accessorKey (c : Cursor) : String × Bool :=
  (memberName c, c.hasToken "static")

theorem key_of_readAccessor {path : String} {c : Cursor} {p : Property}
    (h : (readAccessor path c).outcome = .ok p) : (p.name, p.isStatic) = accessorKey c := by
  obtain ⟨type, -, ⟨⟩⟩ := Traced.ok_of_bind h
  rfl

theorem name_of_readAccessor {path : String} {c : Cursor} {p : Property}
    (h : (readAccessor path c).outcome = .ok p) : p.name = memberName c :=
  congrArg Prod.fst (key_of_readAccessor h)

/-- An accessor is a property of its name and side. -/
theorem property_of_readMember {path : String} {c : Cursor} (accessor : isAccessor c.kind = true)
    {member : Decl} (h : (readMember path c).outcome = .ok member) :
    ∃ p, member = .property p ∧ (p.name, p.isStatic) = accessorKey c := by
  rw [readMember, if_pos accessor] at h
  obtain ⟨p, read, ⟨⟩⟩ := Traced.ok_of_bind h
  exact ⟨p, rfl, key_of_readAccessor read⟩

def AccessorNames (nodes : List Cursor) (names : List String) : Prop :=
  ∀ name, name ∈ names ↔ ∃ c ∈ nodes, isAccessor c.kind = true ∧ memberName c = name

namespace AccessorNames

variable {before : List Cursor} {names : List String} {c : Cursor}

theorem nil : AccessorNames [] [] := by
  intro name
  simp

theorem concat_plain (h : AccessorNames before names) (plain : ¬isAccessor c.kind = true) :
    AccessorNames (before ++ [c]) names := by
  intro name
  rw [h name]
  simp [or_and_right, exists_or, plain]

theorem concat_old (h : AccessorNames before names) (old : memberName c ∈ names) :
    AccessorNames (before ++ [c]) names := by
  intro name
  rw [h name]
  simp only [List.mem_append, List.mem_singleton, or_and_right, exists_or, exists_eq_left]
  refine ⟨.inl, ?_⟩
  rintro (there | ⟨-, rfl⟩)
  · exact there
  · exact (h _).mp old

theorem concat_new (h : AccessorNames before names) (accessor : isAccessor c.kind = true) :
    AccessorNames (before ++ [c]) (memberName c :: names) := by
  intro name
  rw [List.mem_cons, h name, or_comm, @eq_comm _ name]
  simp only [List.mem_append, List.mem_singleton, or_and_right, exists_or, exists_eq_left, accessor,
    true_and]

end AccessorNames

theorem readMember_of_accessor (path : String) {c : Cursor} (accessor : isAccessor c.kind = true)
    {p : Property} (h : (readAccessor path c).outcome = .ok p) :
    (readMember path c).outcome = .ok (.property p) := by
  rw [readMember, if_pos accessor, Traced.outcome_bind h, Traced.outcome_done]

theorem readMember_of_plain (path : String) {c : Cursor} (plain : ¬isAccessor c.kind = true) :
    (readMember path c).outcome = (readPlainMember path c).outcome := by
  rw [readMember, if_neg plain]

/-- One run through the nodes of a body, of which those in `before` have been
read and have left the names of their accessors. -/
theorem map_readMember_of_readMembersAfter {path : String} {before nodes : List Cursor}
    {names : List String} (seen : AccessorNames before names) {members : List Decl}
    (h : (readMembersAfter path names nodes).outcome = .ok members) :
    (ownNodesAfter memberName before nodes).map (fun x => (readMember path x.1).outcome) =
      members.map .ok := by
  induction nodes generalizing before names members with
  | nil =>
      cases h
      rfl
  | cons c nodes ih =>
      rw [readMembersAfter] at h
      rw [ownNodesAfter_cons]
      split at h
      case isTrue accessor =>
          obtain ⟨p, read, h⟩ := Traced.ok_of_bind h
          rw [name_of_readAccessor read] at h
          have folded : isFolded memberName before c = decide (memberName c ∈ names) := by
            rw [Bool.eq_iff_iff, isFolded_eq_true_iff, decide_eq_true_iff, seen]
            exact and_iff_right accessor
          split at h
          case isTrue old =>
              have old := List.contains_iff_mem.mp old
              rw [folded, decide_eq_true old]
              exact ih (seen.concat_old old) h
          case isFalse new =>
              have new := mt List.contains_iff_mem.mpr new
              obtain ⟨rest, later, ⟨⟩⟩ := Traced.ok_of_bind h
              rw [folded, decide_eq_false new, List.map_append, ih (seen.concat_new accessor) later]
              exact congrArg (· :: _) (readMember_of_accessor path accessor read)
      case isFalse plain =>
          obtain ⟨member, read, h⟩ := Traced.ok_of_bind h
          obtain ⟨rest, later, ⟨⟩⟩ := Traced.ok_of_bind h
          have folded : isFolded memberName before c = false := by
            rw [isFolded, Bool.eq_false_iff.mpr plain, Bool.false_and]
          rw [folded, List.map_append, ih (seen.concat_plain plain) later]
          exact congrArg (· :: _) ((readMember_of_plain path plain).trans read)

theorem foldsAccessors_readMembers {path : String} {body : Option Cursor} {members : List Decl}
    (h : (readMembers path body).outcome = .ok members) :
    FoldsAccessors path memberName (memberNodes body) members :=
  map_readMember_of_readMembersAfter AccessorNames.nil h

/-! ## Static and other accessors -/

/-- Accessors of one name are all static or all not. -/
def AccessorsAgree (nodes : List Cursor) : Prop :=
  ∀ a ∈ nodes, ∀ b ∈ nodes, isAccessor a.kind = true -> isAccessor b.kind = true ->
    memberName a = memberName b -> a.hasToken "static" = b.hasToken "static"

section

variable {nodes : List Cursor}

theorem isFolded_memberName_of_accessorKey {before : List Cursor} {c : Cursor}
    (h : isFolded accessorKey before c = true) : isFolded memberName before c = true := by
  obtain ⟨accessor, b, hb, other, same⟩ := isFolded_eq_true_iff.mp h
  exact isFolded_eq_true_iff.mpr ⟨accessor, b, hb, other, congrArg Prod.fst same⟩

theorem ownNodes_accessorKey_eq (h : AccessorsAgree nodes) :
    ownNodes accessorKey nodes = ownNodes memberName nodes := by
  refine List.filter_congr fun x hx => ?_
  have hx := List.mem_of_getElem? (List.mem_zipIdx_iff_getElem?.mp hx)
  refine congrArg Bool.not (Bool.eq_iff_iff.mpr
    ⟨isFolded_memberName_of_accessorKey, fun folded => ?_⟩)
  obtain ⟨accessor, b, hb, other, same⟩ := isFolded_eq_true_iff.mp folded
  have agree := h b (List.mem_of_mem_take hb) x.1 hx other accessor same
  exact isFolded_eq_true_iff.mpr ⟨accessor, b, hb, other, Prod.ext same agree⟩

theorem ownNodes_memberName_sublist :
    List.Sublist (ownNodes memberName nodes) (ownNodes accessorKey nodes) := by
  refine List.monotone_filter_right _ fun x own => ?_
  simp only [Bool.not_eq_true'] at own ⊢
  exact Bool.eq_false_iff.mpr (mt isFolded_memberName_of_accessorKey (Bool.eq_false_iff.mp own))

theorem mem_take_iff {i : Nat} {c : Cursor} :
    c ∈ nodes.take i ↔ ∃ j < i, nodes[j]? = some c := by
  simp only [List.mem_iff_getElem?, List.getElem?_take, Option.ite_none_right_eq_some]

/-- If folding by the name folds no other accessors than folding by the name and
the side, then an accessor is on the side of all earlier ones of its name. -/
theorem side_eq_of_folded
    (h : ∀ i c, nodes[i]? = some c -> isFolded memberName (nodes.take i) c = true ->
      isFolded accessorKey (nodes.take i) c = true)
    {i j : Nat} (less : j < i) {a b : Cursor} (ha : nodes[i]? = some a) (hb : nodes[j]? = some b)
    (accessor : isAccessor a.kind = true) (other : isAccessor b.kind = true)
    (same : memberName b = memberName a) : b.hasToken "static" = a.hasToken "static" := by
  have folded : isFolded memberName (nodes.take i) a = true :=
    isFolded_eq_true_iff.mpr ⟨accessor, b, mem_take_iff.mpr ⟨j, less, hb⟩, other, same⟩
  obtain ⟨-, c, hc, third, key⟩ := isFolded_eq_true_iff.mp (h i a ha folded)
  obtain ⟨k, before, hc⟩ := mem_take_iff.mp hc
  have name : memberName c = memberName a := congrArg Prod.fst key
  have side : c.hasToken "static" = a.hasToken "static" := congrArg Prod.snd key
  -- `c` has the name and the side of `a`, so it is enough to compare it with `b`
  rw [← side]
  rcases Nat.lt_trichotomy j k with earlier | rfl | later
  · exact side_eq_of_folded h earlier hc hb third other (same.trans name.symm)
  · rw [hb] at hc
    rw [Option.some.inj hc]
  · exact (side_eq_of_folded h later hb hc other third (name.trans same.symm)).symm
termination_by i

theorem accessorsAgree_of_ownNodes_eq
    (h : ownNodes memberName nodes = ownNodes accessorKey nodes) : AccessorsAgree nodes := by
  have folded : ∀ i c, nodes[i]? = some c -> isFolded memberName (nodes.take i) c = true ->
      isFolded accessorKey (nodes.take i) c = true := by
    intro i c hc byName
    have hx : (c, i) ∈ nodes.zipIdx := List.mem_zipIdx_iff_getElem?.mpr hc
    have dropped : (c, i) ∉ ownNodes accessorKey nodes := by
      rw [← h, ownNodes, List.mem_filter, byName]
      exact nofun
    rw [ownNodes, List.mem_filter] at dropped
    simpa using fun own => dropped ⟨hx, own⟩
  intro a ha b hb accessor other same
  obtain ⟨i, ha⟩ := List.mem_iff_getElem?.mp ha
  obtain ⟨j, hb⟩ := List.mem_iff_getElem?.mp hb
  rcases Nat.lt_trichotomy i j with less | rfl | greater
  · exact side_eq_of_folded folded less hb ha other accessor same
  · rw [ha] at hb
    rw [Option.some.inj hb]
  · exact (side_eq_of_folded folded greater ha hb accessor other same.symm).symm

end

/-- The members of a body are those of its nodes in order, except that accessors
of one name are folded into the first of them, whose name and side the property
has. They are folded by name and side, so that no accessor is lost, exactly if no
name has accessors on both sides. -/
theorem readMembers_folds_accessors {path : String} {body : Option Cursor} {members : List Decl}
    (h : (readMembers path body).outcome = .ok members) :
    FoldsAccessors path memberName (memberNodes body) members ∧
    (∀ c ∈ memberNodes body, isAccessor c.kind = true ->
      ∀ member, (readMember path c).outcome = .ok member ->
        ∃ p, member = .property p ∧ (p.name, p.isStatic) = accessorKey c) ∧
    (FoldsAccessors path accessorKey (memberNodes body) members ↔
      AccessorsAgree (memberNodes body)) := by
  have byName := foldsAccessors_readMembers h
  refine ⟨byName, fun c _ accessor member => property_of_readMember accessor,
    fun bySide => ?_, fun agree => ?_⟩
  · have length := congrArg List.length (byName.trans bySide.symm)
    rw [List.length_map, List.length_map] at length
    exact accessorsAgree_of_ownNodes_eq (ownNodes_memberName_sublist.eq_of_length length)
  · rw [FoldsAccessors, ownNodes_accessorKey_eq agree]
    exact byName

def accessorTree (tokens : List String) (name : String) (rest : List Node) : Node :=
  spelled "method_signature" none 1 "" (tokens.map (fun token =>
    ⟨token, false, none, ⟨0, 0, 1, token⟩, []⟩) ++
      spelled "property_identifier" (some "name") 1 name [] :: rest)

def getterTree (tokens : List String) (name type : String) : Node :=
  accessorTree (tokens ++ ["get"]) name [
    spelled "type_annotation" (some "return_type") 1 "" [spelled "predefined_type" none 1 type []]]

def setterTree (tokens : List String) (name type : String) : Node :=
  accessorTree (tokens ++ ["set"]) name [
    spelled "formal_parameters" (some "parameters") 1 "" [
      spelled "required_parameter" none 1 "" [
        spelled "identifier" (some "pattern") 1 "value" [],
        spelled "type_annotation" (some "type") 1 "" [spelled "predefined_type" none 1 type []]]]]

def classBody (members : List Node) : Option Cursor :=
  some ⟨some "class_declaration", spelled "class_body" (some "body") 1 "" members⟩

/-- A static accessor, then a field between the getter and the setter of one
property. -/
def gaugeBody : Option Cursor :=
  classBody [
    getterTree ["static"] "count" "number",
    getterTree [] "level" "number",
    spelled "comment" none 1 "// unit" [],
    spelled "public_field_definition" none 1 "" [
      spelled "property_identifier" (some "name") 1 "unit" []],
    setterTree [] "level" "number"]

def gaugeMembers : List Decl :=
  [.property ⟨none, true, none, "count", false, .named "float"⟩,
    .property ⟨none, false, none, "level", false, .named "float"⟩,
    .property ⟨none, false, none, "unit", false, .absent⟩]

theorem gaugeBody_folds_accessors :
    (readMembers "gauge.d.ts" gaugeBody).outcome = .ok gaugeMembers ∧
    AccessorsAgree (memberNodes gaugeBody) ∧
    FoldsAccessors "gauge.d.ts" accessorKey (memberNodes gaugeBody) gaugeMembers := by
  have read : (readMembers "gauge.d.ts" gaugeBody).outcome = .ok gaugeMembers :=
    ok_of_toOption (by decide +kernel)
  have agree : AccessorsAgree (memberNodes gaugeBody) := by
    have all : ((memberNodes gaugeBody).all fun a => (memberNodes gaugeBody).all fun b =>
        memberName a != memberName b || a.hasToken "static" == b.hasToken "static") = true := by
      decide +kernel
    simp only [List.all_eq_true, Bool.or_eq_true, bne_iff_ne, beq_iff_eq] at all
    intro a ha b hb _ _ same
    exact (all a ha b hb).resolve_left (absurd same)
  exact ⟨read, agree, (readMembers_folds_accessors read).2.2.mpr agree⟩

/-- A static getter and another getter of one name. -/
def bothSidesBody : Option Cursor :=
  classBody [getterTree ["static"] "size" "number", getterTree [] "size" "string"]

/-- Of two getters on different sides only the first is a member. -/
theorem bothSidesBody_loses_accessor :
    (readMembers "box.d.ts" bothSidesBody).outcome =
      .ok [.property ⟨none, true, none, "size", false, .named "float"⟩] ∧
    (ownNodes accessorKey (memberNodes bothSidesBody)).map (fun x => (accessorKey x.1, x.2)) =
      [(("size", true), 0), (("size", false), 1)] ∧
    ¬ FoldsAccessors "box.d.ts" accessorKey (memberNodes bothSidesBody)
      [.property ⟨none, true, none, "size", false, .named "float"⟩] := by
  have own : (ownNodes accessorKey (memberNodes bothSidesBody)).map
      (fun x => (accessorKey x.1, x.2)) = [(("size", true), 0), (("size", false), 1)] := by
    decide +kernel
  refine ⟨ok_of_toOption (by decide +kernel), own, fun folds => ?_⟩
  have length := congrArg List.length folds
  have two := congrArg List.length own
  simp only [List.length_map, List.length_cons, List.length_nil] at length two
  omega

end Bindgen
