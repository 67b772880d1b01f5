import Mathlib.Data.List.Induction
import Mathlib.Data.List.Nodup
import Bindgen.Proofs.Reading.Declarations
import Bindgen.Proofs.Reading.Positions

/-! # Unions

However unions are nested in one another, a union is read to the types of its
alternatives in the order of the tree, without repetitions and without `null`
and `undefined`, which only show in a flag.
-/

namespace Bindgen

open Syntax

/-! ## First occurrences -/

/-- The elements of `all` without repetitions, each at the rank of its first
occurrence. -/
structure FirstOccurrences {α : Type} [DecidableEq α] (all kept : List α) : Prop where
  nodup : kept.Nodup
  mem : ∀ a, a ∈ kept ↔ a ∈ all
  order : kept.Pairwise fun a b => all.idxOf a < all.idxOf b

namespace FirstOccurrences

variable {α : Type} [DecidableEq α] {all kept : List α}

theorem nil : FirstOccurrences ([] : List α) [] :=
  ⟨List.nodup_nil, fun _ => Iff.rfl, .nil⟩

theorem idxOf_concat (h : FirstOccurrences all kept) (a : α) {b : α} (hb : b ∈ kept) :
    (all ++ [a]).idxOf b = all.idxOf b := by
  rw [List.idxOf_append, if_pos ((h.mem b).mp hb)]

theorem order_concat (h : FirstOccurrences all kept) (a : α) :
    kept.Pairwise fun b c => (all ++ [a]).idxOf b < (all ++ [a]).idxOf c := by
  refine h.order.imp_of_mem fun hb hc less => ?_
  rw [h.idxOf_concat a hb, h.idxOf_concat a hc]
  exact less

/-- A repetition adds nothing. -/
theorem concat_old (h : FirstOccurrences all kept) {a : α} (old : a ∈ kept) :
    FirstOccurrences (all ++ [a]) kept where
  nodup := h.nodup
  mem b := by
    rw [h.mem, List.mem_append, List.mem_singleton]
    constructor
    · exact .inl
    · rintro (hb | rfl)
      · exact hb
      · exact (h.mem b).mp old
  order := h.order_concat a

/-- A new element comes last. -/
theorem concat_new (h : FirstOccurrences all kept) {a : α} (new : a ∉ kept) :
    FirstOccurrences (all ++ [a]) (kept ++ [a]) where
  nodup := List.nodup_append.mpr ⟨h.nodup, by simp, by grind⟩
  mem b := by rw [List.mem_append, List.mem_append, h.mem]
  order := by
    refine List.pairwise_append.mpr ⟨h.order_concat a, by simp, ?_⟩
    intro b hb c hc
    have fresh : a ∉ all := fun ha => new ((h.mem a).mpr ha)
    have inside : all.idxOf b < all.length := List.idxOf_lt_length_iff.mpr ((h.mem b).mp hb)
    rw [List.mem_singleton.mp hc, h.idxOf_concat a hb, List.idxOf_append, if_neg fresh]
    omega

theorem exists_of (all : List α) : ∃ kept, FirstOccurrences all kept := by
  induction all using List.reverseRecOn with
  | nil => exact ⟨[], nil⟩
  | append_singleton all a ih =>
      obtain ⟨kept, h⟩ := ih
      by_cases old : a ∈ kept
      · exact ⟨kept, h.concat_old old⟩
      · exact ⟨kept ++ [a], h.concat_new old⟩

/-- There is one way to keep first occurrences. -/
theorem unique {other : List α} (h : FirstOccurrences all kept)
    (h' : FirstOccurrences all other) : kept = other := by
  have perm : kept.Perm other := (List.perm_ext_iff_of_nodup h.nodup h'.nodup).mpr fun a =>
    (h.mem a).trans (h'.mem a).symm
  refine perm.eq_of_pairwise ?_ h.order h'.order
  intro a b _ _ less greater
  omega

/-- A change that keeps elements apart keeps first occurrences. -/
theorem map_iff {β : Type} [DecidableEq β] {f : α -> β} (inj : Function.Injective f) :
    FirstOccurrences (all.map f) (kept.map f) ↔ FirstOccurrences all kept := by
  have idxOf : ∀ a, (all.map f).idxOf (f a) = all.idxOf a := by
    intro a
    simp only [List.idxOf, List.findIdx_map, Function.comp_def, inj.beq_eq]
  constructor
  · intro h
    refine ⟨(List.nodup_map_iff inj).mp h.nodup, fun a => ?_, ?_⟩
    · rw [← List.mem_map_of_injective inj, h.mem, List.mem_map_of_injective inj]
    · simpa only [List.pairwise_map, idxOf] using h.order
  · intro h
    refine ⟨(List.nodup_map_iff inj).mpr h.nodup, fun b => ?_, ?_⟩
    · simp only [List.mem_map, h.mem]
    · simpa only [List.pairwise_map, idxOf] using h.order

end FirstOccurrences

theorem Decl.firstOccurrences_dedupeFrom {seen kept : List Decl} (ds : List Decl)
    (h : FirstOccurrences seen kept) : FirstOccurrences (seen ++ ds) (Decl.dedupeFrom kept ds) := by
  induction ds generalizing seen kept with
  | nil => rwa [List.append_nil, Decl.dedupeFrom]
  | cons d ds ih =>
      rw [Decl.dedupeFrom, List.append_cons]
      split
      case isTrue old => exact ih (h.concat_old old)
      case isFalse new => exact ih (h.concat_new new)

/-- Removing repetitions keeps first occurrences and nothing else. -/
theorem Decl.dedupe_eq_iff {ds es : List Decl} : Decl.dedupe ds = es ↔ FirstOccurrences ds es := by
  have dedupe : FirstOccurrences ds (Decl.dedupe ds) :=
    Decl.firstOccurrences_dedupeFrom ds FirstOccurrences.nil
  constructor
  · rintro rfl
    exact dedupe
  · exact dedupe.unique

/-! ## The alternatives of nested unions -/

namespace Syntax.Cursor

/-- The path leads from a union to one of its alternatives: each step is to a
child that is no bare token and no comment, each but the last to a union, and
the last to something else. -/
def AlternativeAt (c : Cursor) : List Nat -> Cursor -> Prop
  | [], _ => False
  | i :: path, a =>
    ∃ child, c.children[i]? = some child ∧ child.node.named = true ∧ child.type ≠ "comment" ∧
      if child.type = "union_type" then child.AlternativeAt path a else path = [] ∧ child = a

/-- The list has the alternatives of a union, each path to one counted once, in
the order of the paths. -/
def ListsAlternatives (c : Cursor) (as : List Cursor) : Prop :=
  ∃ found : List (List Nat × Cursor), found.map Prod.snd = as ∧
    found.Pairwise (fun x y => x.1 < y.1) ∧ ∀ path a, (path, a) ∈ found ↔ c.AlternativeAt path a

/-- What is behind one child of a union: nothing, the child or its own
alternatives. -/
def alternativesFrom (child : Cursor) : List Cursor :=
  if child.node.named && child.type != "comment" then
    if child.type == "union_type" then child.flattenUnion else [child]
  else []

theorem flattenUnion_eq_flatMap_children (c : Cursor) :
    c.flattenUnion = c.children.flatMap alternativesFrom := by
  rw [flattenUnion_eq, named]
  induction c.children with
  | nil => rfl
  | cons child children ih =>
      rw [List.flatMap_cons, ← ih, List.filter_cons, alternativesFrom]
      split
      · rw [List.flatMap_cons]
      · rw [List.nil_append]

/-- The rest of a path to an alternative, from a child of the union on. -/
def LeadsTo (child : Cursor) (path : List Nat) (a : Cursor) : Prop :=
  child.node.named = true ∧ child.type ≠ "comment" ∧
    if child.type = "union_type" then child.AlternativeAt path a else path = [] ∧ child = a

theorem exists_paths_from_child (child : Cursor) (i : Nat)
    (inside : child.ListsAlternatives child.flattenUnion) :
    ∃ found : List (List Nat × Cursor), found.map Prod.snd = child.alternativesFrom ∧
      found.Pairwise (fun x y => x.1 < y.1) ∧
      ∀ path a, (path, a) ∈ found ↔ ∃ rest, path = i :: rest ∧ child.LeadsTo rest a := by
  unfold alternativesFrom
  split
  case isTrue named =>
      simp only [Bool.and_eq_true, bne_iff_ne] at named
      split
      case isTrue union =>
          have leads : ∀ rest a, child.LeadsTo rest a ↔ child.AlternativeAt rest a := by
            intro rest a
            simp only [LeadsTo, named, if_pos (beq_iff_eq.mp union), ne_eq, not_false_eq_true,
              true_and]
          obtain ⟨found, same, sorted, mem⟩ := inside
          refine ⟨found.map fun x => (i :: x.1, x.2), ?_, ?_, ?_⟩
          · rw [List.map_map, ← same]
            rfl
          · simpa [List.pairwise_map, List.cons_lt_cons_iff] using sorted
          · intro path a
            constructor
            · intro h
              obtain ⟨⟨rest, b⟩, hb, ⟨⟩⟩ := List.mem_map.mp h
              exact ⟨rest, rfl, (leads rest b).mpr ((mem rest b).mp hb)⟩
            · rintro ⟨rest, rfl, h⟩
              exact List.mem_map.mpr ⟨(rest, a), (mem rest a).mpr ((leads rest a).mp h), rfl⟩
      case isFalse plain =>
          have leads : ∀ rest a, child.LeadsTo rest a ↔ rest = [] ∧ child = a := by
            intro rest a
            simp only [LeadsTo, named, if_neg (mt beq_iff_eq.mpr plain), ne_eq,
              not_false_eq_true, true_and]
          refine ⟨[([i], child)], rfl, List.pairwise_singleton _ _, fun path a => ?_⟩
          constructor
          · intro h
            obtain ⟨⟩ := List.mem_singleton.mp h
            exact ⟨[], rfl, (leads [] child).mpr ⟨rfl, rfl⟩⟩
          · rintro ⟨rest, rfl, h⟩
            obtain ⟨rfl, rfl⟩ := (leads rest a).mp h
            exact List.mem_singleton.mpr rfl
  case isFalse skipped =>
      refine ⟨[], rfl, .nil, fun path a => ⟨nofun, ?_⟩⟩
      rintro ⟨rest, -, named, comment, -⟩
      exact absurd (by simp [named, comment]) skipped

theorem exists_paths_from_children (children : List Cursor) (k : Nat)
    (inside : ∀ child ∈ children, child.ListsAlternatives child.flattenUnion) :
    ∃ found : List (List Nat × Cursor), found.map Prod.snd = children.flatMap alternativesFrom ∧
      found.Pairwise (fun x y => x.1 < y.1) ∧
      ∀ path a, (path, a) ∈ found ↔ ∃ i rest child, path = (k + i) :: rest ∧
        children[i]? = some child ∧ child.LeadsTo rest a := by
  induction children generalizing k with
  | nil => exact ⟨[], rfl, .nil, fun path a => ⟨nofun, by simp⟩⟩
  | cons child children ih =>
      obtain ⟨hchild, hchildren⟩ := List.forall_mem_cons.mp inside
      obtain ⟨first, sameFirst, sortedFirst, memFirst⟩ := exists_paths_from_child child k hchild
      obtain ⟨later, sameLater, sortedLater, memLater⟩ := ih (k + 1) hchildren
      refine ⟨first ++ later, ?_, ?_, ?_⟩
      · rw [List.map_append, sameFirst, sameLater, List.flatMap_cons]
      · refine List.pairwise_append.mpr ⟨sortedFirst, sortedLater, ?_⟩
        rintro ⟨p, a⟩ hp ⟨q, b⟩ hq
        obtain ⟨rest, rfl, -⟩ := (memFirst p a).mp hp
        obtain ⟨i, rest', -, rfl, -⟩ := (memLater q b).mp hq
        exact List.cons_lt_cons_iff.mpr (.inl (by omega))
      · intro path a
        rw [List.mem_append, memFirst, memLater]
        constructor
        · rintro (⟨rest, rfl, leads⟩ | ⟨i, rest, other, rfl, found, leads⟩)
          · exact ⟨0, rest, child, rfl, rfl, leads⟩
          · refine ⟨i + 1, rest, other, ?_, found, leads⟩
            rw [Nat.add_right_comm, Nat.add_assoc]
        · rintro ⟨i, rest, other, rfl, found, leads⟩
          cases i with
          | zero =>
              cases found
              exact .inl ⟨rest, rfl, leads⟩
          | succ i =>
              refine .inr ⟨i, rest, other, ?_, found, leads⟩
              rw [Nat.add_right_comm, Nat.add_assoc]

/-- Flattening lists the alternatives of a union in the order of the tree. -/
theorem flattenUnion_listsAlternatives (c : Cursor) : c.ListsAlternatives c.flattenUnion := by
  have inside : ∀ child ∈ c.children, child.ListsAlternatives child.flattenUnion := by
    intro child hchild
    have := size_lt_of_mem_children hchild
    exact flattenUnion_listsAlternatives child
  obtain ⟨found, same, sorted, mem⟩ := exists_paths_from_children c.children 0 inside
  refine ⟨found, by rw [same, flattenUnion_eq_flatMap_children], sorted, fun path a => ?_⟩
  rw [mem]
  constructor
  · rintro ⟨i, rest, child, rfl, child?, leads⟩
    rw [Nat.zero_add]
    exact ⟨child, child?, leads⟩
  · intro h
    cases path with
    | nil => cases h
    | cons i rest =>
        obtain ⟨child, child?, leads⟩ := h
        exact ⟨i, rest, child, by rw [Nat.zero_add], child?, leads⟩
termination_by c.size

theorem AlternativeAt.type_ne {c a : Cursor} {path : List Nat} (h : c.AlternativeAt path a) :
    a.type ≠ "union_type" := by
  induction path generalizing c with
  | nil => cases h
  | cons i path ih =>
      obtain ⟨child, -, -, -, rest⟩ := h
      split at rest
      · exact ih rest
      · obtain ⟨-, rfl⟩ := rest
        assumption

/-- No alternative is a union itself. -/
theorem type_ne_of_mem_flattenUnion {a c : Cursor} (h : a ∈ c.flattenUnion) :
    a.type ≠ "union_type" := by
  obtain ⟨found, same, -, mem⟩ := c.flattenUnion_listsAlternatives
  rw [← same] at h
  obtain ⟨⟨path, b⟩, hb, rfl⟩ := List.mem_map.mp h
  exact ((mem path b).mp hb).type_ne

end Syntax.Cursor

/-! ## Reading unions -/

/-- A list is run through to values exactly if each element has its value. -/
theorem Traced.outcome_traverse_eq_ok_iff {ω ε α β : Type} {f : α -> Traced ω ε β} {as : List α}
    {bs : List β} :
    (traverse f as).outcome = .ok bs ↔ as.map (fun a => (f a).outcome) = bs.map .ok := by
  refine ⟨map_outcome_of_traverse, fun h => ?_⟩
  induction as generalizing bs with
  | nil =>
      cases bs with
      | nil => rfl
      | cons b bs => cases h
  | cons a as ih =>
      cases bs with
      | nil => cases h
      | cons b bs =>
          obtain ⟨first, rest⟩ := List.cons.inj h
          rw [traverse, outcome_bind first, outcome_bind (ih rest), outcome_done]

/-- A union is read exactly if its alternatives are. -/
theorem readUnion_eq_ok_iff {path : String} {c : Cursor} {d : Decl} :
    (readUnion path c).outcome = .ok d ↔
      ∃ types kept, (alternatives c).map (fun a => (readType path a).outcome) = types.map .ok ∧
        FirstOccurrences types kept ∧ d = .union (c.flattenUnion.any Cursor.isNullish) kept := by
  constructor
  · intro h
    obtain ⟨types, read, ⟨⟩⟩ := Traced.ok_of_bind h
    exact ⟨types, Decl.dedupe types, Traced.outcome_traverse_eq_ok_iff.mp read,
      Decl.dedupe_eq_iff.mp rfl, rfl⟩
  · rintro ⟨types, kept, read, first, rfl⟩
    rw [readUnion, Traced.outcome_bind (Traced.outcome_traverse_eq_ok_iff.mpr read),
      Decl.dedupe_eq_iff.mpr first, Traced.outcome_done]

theorem kind_of_union_type {c : Cursor} (union : c.type = "union_type") :
    c.kind = if c.inHeritageClause then .expressionWithTypeArguments else .unionType := by
  have own : c.ownKind = .unionType := by
    unfold Cursor.ownKind
    rw [union]
    rfl
  rw [Cursor.kind, union, own]
  rfl

theorem unwrapType_of_union_type {c : Cursor} (union : c.type = "union_type") :
    c.unwrapType = c := by
  rw [Cursor.unwrapType, union, if_neg (by decide)]

/-- Unions with the same alternatives, up to where these stand, are read alike. -/
theorem value?_readUnion_congr {path other : String} {c d : Cursor}
    (same : d.flattenUnion.map Cursor.unplaced = c.flattenUnion.map Cursor.unplaced) :
    (readUnion other d).value? = (readUnion path c).value? := by
  have optional : d.flattenUnion.any Cursor.isNullish = c.flattenUnion.any Cursor.isNullish := by
    have := congrArg (fun l => List.any l Cursor.isNullish) same
    simpa only [List.any_map, Function.comp_def, Cursor.isNullish_unplaced] using this
  have rest : (alternatives d).map Cursor.unplaced = (alternatives c).map Cursor.unplaced := by
    have := congrArg (fun l => List.filter (fun a => !Cursor.isNullish a) l) same
    simpa only [alternatives, List.filter_map, Function.comp_def, Cursor.isNullish_unplaced]
      using this
  have read : ∀ (from' : String) (as : List Cursor),
      (Traced.traverse (readType path) (as.map Cursor.unplaced)).value? =
        (Traced.traverse (readType from') as).value? :=
    fun from' as => Traced.value?_traverse_map fun a _ => value?_readType_unplaced path from' a
  rw [readUnion, readUnion, Traced.value?_bind, Traced.value?_bind,
    ← read other (alternatives d), rest, read path (alternatives c), optional]

/-- A union lists its alternatives in the order of the tree, however they are
nested. It is read exactly if its alternatives other than `null` and `undefined`
are, to their types without repetitions in order of first occurrence, and it is
optional exactly if one of those two is among the alternatives. What is read
depends on nothing but the alternatives. (As an entry of a heritage clause a
union is no type.) -/
theorem unionType_read_normalized (path : String) (c : Cursor) (union : c.type = "union_type") :
    c.ListsAlternatives c.flattenUnion ∧
    (∀ a ∈ c.flattenUnion, a.type ≠ "union_type") ∧
    (readType path c =
      if c.inHeritageClause then do
        noteUnsupported path "type" c
        .done .todo
      else readUnion path c) ∧
    (∀ d, (readUnion path c).outcome = .ok d ↔
      ∃ optional types kept, d = .union optional kept ∧
        (optional = true ↔ ∃ a ∈ c.flattenUnion, a.isNullish = true) ∧
        (c.flattenUnion.filter fun a => !a.isNullish).map
          (fun a => (readType path a).outcome) = types.map .ok ∧
        FirstOccurrences types kept) ∧
    ∀ (otherPath : String) (other : Cursor),
      other.flattenUnion.map Cursor.unplaced = c.flattenUnion.map Cursor.unplaced ->
        (readUnion otherPath other).value? = (readUnion path c).value? := by
  have kind := kind_of_union_type union
  refine ⟨c.flattenUnion_listsAlternatives, fun _ => Cursor.type_ne_of_mem_flattenUnion, ?_, ?_,
    fun otherPath other same => value?_readUnion_congr same⟩
  · rw [readType, unwrapType_of_union_type union]
    split at kind
    case isTrue heritage =>
        rw [heritage, readBareType, kind]
        simp only [readOtherType, kind]
        rfl
    case isFalse outside => rw [readBareType_of_unionType path kind, if_neg outside]
  · intro d
    rw [readUnion_eq_ok_iff]
    constructor
    · rintro ⟨types, kept, read, first, rfl⟩
      exact ⟨_, types, kept, rfl, List.any_eq_true, read, first⟩
    · rintro ⟨optional, types, kept, rfl, flag, read, first⟩
      refine ⟨types, kept, read, first, ?_⟩
      rw [Bool.eq_iff_iff.mpr (flag.trans List.any_eq_true.symm)]

/-- The union `Left | null | Right | Left`, nested to the left and with a
comment in it. -/
def sidesLeft : Cursor :=
  .root (spelled "union_type" none 1 "Left | null /* none */ | Right | Left" [
    spelled "union_type" none 1 "Left | null /* none */ | Right" [
      spelled "union_type" none 1 "Left | null" [
        spelled "type_identifier" none 1 "Left" [],
        ⟨"|", false, none, ⟨5, 6, 1, "|"⟩, []⟩,
        spelled "literal_type" none 1 "null" [spelled "null" none 1 "null" []]],
      spelled "comment" none 1 "/* none */" [],
      spelled "type_identifier" none 1 "Right" []],
    spelled "type_identifier" none 1 "Left" []])

/-- The same alternatives on other lines, nested to the right. -/
def sidesRight : Cursor :=
  .root (spelled "union_type" none 7 "Left | null | Right | Left" [
    spelled "type_identifier" none 7 "Left" [],
    spelled "union_type" none 8 "null | Right | Left" [
      spelled "literal_type" none 8 "null" [spelled "null" none 8 "null" []],
      spelled "union_type" none 9 "Right | Left" [
        spelled "type_identifier" none 9 "Right" [],
        spelled "type_identifier" none 9 "Left" []]]])

theorem sides_read_normalized :
    sidesLeft.type = "union_type" ∧
    sidesRight.flattenUnion.map Cursor.unplaced = sidesLeft.flattenUnion.map Cursor.unplaced ∧
    sidesLeft.AlternativeAt [0, 0, 2] ⟨some "union_type",
      spelled "literal_type" none 1 "null" [spelled "null" none 1 "null" []]⟩ ∧
    (readType "sides.d.ts" sidesLeft).outcome = .ok (.union true [.named "Left", .named "Right"]) ∧
    (readUnion "other.d.ts" sidesRight).value? =
      some (.union true [.named "Left", .named "Right"]) := by
  have same : sidesRight.flattenUnion.map Cursor.unplaced =
      sidesLeft.flattenUnion.map Cursor.unplaced := by
    with_unfolding_all rfl
  have types : (alternatives sidesLeft).map (fun a => (readType "sides.d.ts" a).outcome) =
      [Decl.named "Left", .named "Right", .named "Left"].map .ok := by
    with_unfolding_all rfl
  have nullish : ∃ a ∈ sidesLeft.flattenUnion, a.isNullish = true :=
    List.any_eq_true.mp (by decide +kernel)
  obtain ⟨-, -, asUnion, yields, alike⟩ := unionType_read_normalized "sides.d.ts" sidesLeft rfl
  have read := (yields _).mpr ⟨true, _, [.named "Left", .named "Right"], rfl, by simp [nullish],
    types, Decl.dedupe_eq_iff.mp (by decide)⟩
  refine ⟨rfl, same, ?_, ?_, ?_⟩
  · simp [Cursor.AlternativeAt, sidesLeft, Cursor.root, Cursor.children, spelled, Cursor.type]
  · rw [asUnion]
    exact read
  · rw [alike "other.d.ts" sidesRight same]
    exact Traced.value?_eq_some_iff.mpr read

end Bindgen
