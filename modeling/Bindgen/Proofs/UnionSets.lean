import Mathlib.Data.Finset.Card
import Bindgen.Proofs.Reading.Unions
import Bindgen.Proofs.SelfTypes

/-! # Unions as sets of alternatives

Whether a union is too wide is decided by the set of its rewritten alternatives. The
order of the alternatives and how often each of them is named play no part, and two
alternatives that become equal count as one. What a union becomes is found in the file
that the pass yields, unless a union around it is given up.
-/

namespace Bindgen

/-! ## Declarations without repetitions -/

namespace Decl

theorem mem_dedupe {d : Decl} {ds : List Decl} : d ∈ dedupe ds ↔ d ∈ ds :=
  (dedupe_eq_iff.mp rfl).mem d

theorem length_dedupe (ds : List Decl) : (dedupe ds).length = ds.toFinset.card := by
  have same : (dedupe ds).toFinset = ds.toFinset := by
    ext d
    rw [List.mem_toFinset, List.mem_toFinset, mem_dedupe]
  rw [← same, List.toFinset_card_of_nodup (nodup_dedupe ds)]

theorem dedupe_perm {ds es : List Decl} (same : ∀ d, d ∈ ds ↔ d ∈ es) :
    (dedupe ds).Perm (dedupe es) := by
  refine (List.perm_ext_iff_of_nodup (nodup_dedupe ds) (nodup_dedupe es)).mpr fun d => ?_
  rw [mem_dedupe, mem_dedupe, same]

/-! ## What one union becomes -/

theorem cappedUnion_eq_obj_iff {limit : Int} {optional : Bool} {ds : List Decl} :
    cappedUnion limit (.union optional ds) = .obj ↔ limit < ds.toFinset.card := by
  rw [← length_dedupe, cappedUnion]
  split
  case isTrue wide => exact iff_of_true rfl wide
  case isFalse fits => exact iff_of_false (by rintro ⟨⟩) fits

/-- Two unions with the same set of alternatives are both given up, or both kept with
the same alternatives. -/
theorem cappedUnion_of_same_set (limit : Int) (optional : Bool) {ds es : List Decl}
    (same : ∀ d, d ∈ ds ↔ d ∈ es) :
    cappedUnion limit (.union optional ds) = .obj ∧
        cappedUnion limit (.union optional es) = .obj ∨
      ∃ ds' es', cappedUnion limit (.union optional ds) = .union optional ds' ∧
        cappedUnion limit (.union optional es) = .union optional es' ∧ ds'.Perm es' := by
  have perm := dedupe_perm same
  have width := perm.length_eq
  by_cases wide : limit < (dedupe ds).length
  · exact .inl ⟨if_pos wide, if_pos (width ▸ wide)⟩
  · exact .inr ⟨_, _, if_neg wide, if_neg (width ▸ wide), perm⟩

theorem rewrite_capUnions_union (limit : Int) (optional : Bool) (ds : List Decl) :
    (Decl.union optional ds).rewrite (.capUnions limit) =
      cappedUnion limit (.union optional (ds.map (Decl.rewrite (.capUnions limit)))) :=
  rewrite_eq_apply _ _

/-! ## Where it is found -/

/-- The property holds of all parts around the place. -/
def AllAround (P : Decl -> Prop) : Decl -> List Nat -> Prop
  | _, [] => True
  | d, k :: place => P d ∧ ∀ c, d.children[k]? = some c -> c.AllAround P place

theorem AllAround.imp {P Q : Decl -> Prop} (h : ∀ d, P d -> Q d) {d : Decl} {place : List Nat}
    (all : d.AllAround P place) : d.AllAround Q place := by
  induction place generalizing d with
  | nil => trivial
  | cons k place ih => exact ⟨h d all.1, fun c child => ih (all.2 c child)⟩

def IsUnion (d : Decl) : Prop :=
  ∃ optional ds, d = .union optional ds

/-- Only unions change on their own. -/
theorem rewrite_capUnions_of_not_isUnion (limit : Int) {d : Decl} (other : ¬ d.IsUnion) :
    d.rewrite (.capUnions limit) = d.rebuild (.capUnions limit) := by
  rw [rewrite_eq_apply]
  cases d with
  | union optional ds => exact absurd ⟨optional, ds, rfl⟩ other
  | _ => rfl

/-- A child of a declaration that is not given up is a child of the outcome. -/
theorem getElem?_children_capUnions {limit : Int} {d c : Decl} {k : Nat}
    (child : d.children[k]? = some c) (kept : d.rewrite (.capUnions limit) ≠ .obj) :
    ∃ l, (d.rewrite (.capUnions limit)).children[l]? = some (c.rewrite (.capUnions limit)) ∧
      (¬ d.IsUnion -> l = k) := by
  by_cases union : d.IsUnion
  · obtain ⟨optional, ds, rfl⟩ := union
    have here : c.rewrite (.capUnions limit) ∈ ds.map (Decl.rewrite (.capUnions limit)) :=
      List.mem_map_of_mem (List.mem_of_getElem? child)
    rw [rewrite_capUnions_union] at kept ⊢
    rcases cappedUnion_cases limit optional (ds.map (Decl.rewrite (.capUnions limit))) with
      obj | ⟨-, capped⟩
    · exact absurd obj kept
    · obtain ⟨l, found⟩ := List.mem_iff_getElem?.mp (mem_dedupe.mpr here)
      rw [capped]
      exact ⟨l, found, fun other => absurd ⟨optional, ds, rfl⟩ other⟩
  · refine ⟨k, ?_, fun _ => rfl⟩
    rw [rewrite_capUnions_of_not_isUnion limit union, children_rebuild, List.getElem?_map, child]
    rfl

/-- What a part becomes is found at the same depth, and at the same place if no union
stands around it. -/
theorem partAt?_capUnions {limit : Int} {d e : Decl} {place : List Nat}
    (part : d.partAt? place = some e)
    (kept : d.AllAround (fun a => a.rewrite (.capUnions limit) ≠ .obj) place) :
    ∃ found, (d.rewrite (.capUnions limit)).partAt? found = some (e.rewrite (.capUnions limit)) ∧
      found.length = place.length ∧
      (d.AllAround (fun a => ¬ a.IsUnion) place -> found = place) := by
  induction place generalizing d with
  | nil =>
      cases part
      exact ⟨[], rfl, rfl, fun _ => rfl⟩
  | cons k place ih =>
      obtain ⟨c, child, part⟩ := partAt?_cons_eq_some_iff.mp part
      obtain ⟨l, there, sameChild⟩ := getElem?_children_capUnions child kept.1
      obtain ⟨found, below, depth, samePlace⟩ := ih part (kept.2 c child)
      refine ⟨l :: found, partAt?_cons_eq_some_iff.mpr ⟨_, there, below⟩, ?_, ?_⟩
      · rw [List.length_cons, depth, List.length_cons]
      · intro free
        rw [sameChild free.1, samePlace (free.2 c child)]

theorem transform_capUnion (limit : Int) (d : Decl) :
    (d.transform (capUnion limit)).outcome = .ok (d.rewrite (.capUnions limit)) :=
  transform_outcome (capUnion_follows limit) d

/-- The pass turns `d` into `e`. Wherever `d` stands in a file, `e` is found at the same
depth of the outcome, and at the same place if that is in no union; only inside of a union
that is given up nothing is left. -/
structure CapsTo (limit : Int) (d e : Decl) : Prop where
  alone : (d.transform (capUnion limit)).outcome = .ok e
  inFile : ∀ (f : File) (place : List Nat), (Decl.file f).partAt? place = some d ->
    (Decl.file f).AllAround (fun a => (a.transform (capUnion limit)).outcome ≠ .ok .obj) place ->
    ∃ f' found, (f.capUnions limit).outcome = .ok f' ∧ (Decl.file f').partAt? found = some e ∧
      found.length = place.length ∧
      ((Decl.file f).AllAround (fun a => ¬ a.IsUnion) place -> found = place)

theorem capsTo_rewrite (limit : Int) (d : Decl) :
    d.CapsTo limit (d.rewrite (.capUnions limit)) where
  alone := transform_capUnion limit d
  inFile f place part kept := by
    have kept := kept.imp fun a given => fun obj : a.rewrite (.capUnions limit) = .obj =>
      given ((transform_capUnion limit a).trans (congrArg Except.ok obj))
    obtain ⟨found, there, depth, samePlace⟩ := partAt?_capUnions part kept
    have whole : (Decl.file f).rewrite (.capUnions limit) = .file (f.rewrite (.capUnions limit)) :=
      rewrite_eq_apply _ _
    rw [whole] at there
    exact ⟨_, found, capUnions_outcome limit f, there, depth, samePlace⟩

end Decl

/-- A union with the alternatives `as` and one with `bs`, which are the same up to order
and repetitions, are both given up or both kept with the same alternatives in some order.
A union is given up exactly if it has more than `limit` different alternatives once these
have been rewritten. -/
theorem capUnions_decides_by_set (limit : Int) (optional : Bool) {as bs : List Decl}
    (same : ∀ d, d ∈ as ↔ d ∈ bs) :
    ∃ as' bs' a b,
      (Decl.transformAll (capUnion limit) as).outcome = .ok as' ∧
      (Decl.transformAll (capUnion limit) bs).outcome = .ok bs' ∧
      (Decl.union optional as).CapsTo limit a ∧ (Decl.union optional bs).CapsTo limit b ∧
      (a = .obj ∧ b = .obj ∨
        ∃ cs ds, a = .union optional cs ∧ b = .union optional ds ∧ cs.Perm ds) ∧
      (a = .obj ↔ limit < as'.toFinset.card) ∧ (b = .obj ↔ limit < bs'.toFinset.card) := by
  have rewritten : ∀ d, d ∈ as.map (Decl.rewrite (.capUnions limit)) ↔
      d ∈ bs.map (Decl.rewrite (.capUnions limit)) := by
    intro d
    simp only [List.mem_map, same]
  refine ⟨_, _, _, _, Decl.transformAll_outcome (capUnion_follows limit) as,
    Decl.transformAll_outcome (capUnion_follows limit) bs, Decl.capsTo_rewrite limit _,
    Decl.capsTo_rewrite limit _, ?_⟩
  simp only [Decl.rewriteAll_eq_map, Decl.rewrite_capUnions_union]
  exact ⟨Decl.cappedUnion_of_same_set limit optional rewritten, Decl.cappedUnion_eq_obj_iff,
    Decl.cappedUnion_eq_obj_iff⟩

/-- Both unions of three names are given up, so that they count as one alternative. -/
def nestedAlternatives : List Decl :=
  [.union false [.named "A", .named "B", .named "C"],
   .union true [.named "D", .named "E", .named "F"], .named "string"]

def nestedAlternativesAgain : List Decl :=
  [.named "string", .union true [.named "D", .named "E", .named "F"],
   .union false [.named "A", .named "B", .named "C"], .named "string"]

def fileOfUnion (alternatives : List Decl) : File :=
  ⟨"Ui", [], [⟨"", [.typeAlias ⟨"Id", .union false alternatives, []⟩]⟩]⟩

theorem nestedAlternatives_decided_by_set :
    (∀ d, d ∈ nestedAlternatives ↔ d ∈ nestedAlternativesAgain) ∧
    ∃ cs ds f', ((Decl.union false nestedAlternatives).transform (capUnion 2)).outcome =
        .ok (.union false cs) ∧
      ((Decl.union false nestedAlternativesAgain).transform (capUnion 2)).outcome =
        .ok (.union false ds) ∧ cs.Perm ds ∧
      ((fileOfUnion nestedAlternatives).capUnions 2).outcome = .ok f' ∧
      (Decl.file f').partAt? [0, 0, 0] = some (.union false cs) := by
  have same : ∀ d, d ∈ nestedAlternatives ↔ d ∈ nestedAlternativesAgain := by
    intro d
    simp only [nestedAlternatives, nestedAlternativesAgain, List.mem_cons, List.not_mem_nil]
    tauto
  obtain ⟨as', bs', a, b, rewritten, -, capped, capped', both, wide, -⟩ :=
    capUnions_decides_by_set 2 false same
  have narrow : a ≠ .obj := by
    obtain rfl : [.obj, .obj, .named "string"] = as' := Except.ok.inj rewritten
    exact fun obj => absurd (wide.mp obj) (by decide)
  have around : ∀ {P : Decl -> Prop}, P (.file (fileOfUnion nestedAlternatives)) ->
      P (.module ⟨"", [.typeAlias ⟨"Id", .union false nestedAlternatives, []⟩]⟩) ->
      P (.typeAlias ⟨"Id", .union false nestedAlternatives, []⟩) ->
      (Decl.file (fileOfUnion nestedAlternatives)).AllAround P [0, 0, 0] := by
    intro P file module typeAlias
    refine ⟨file, ?_⟩
    rintro _ ⟨⟩
    refine ⟨module, ?_⟩
    rintro _ ⟨⟩
    exact ⟨typeAlias, fun _ _ => trivial⟩
  obtain ⟨f', found, whole, there, -, samePlace⟩ :=
    capped.inFile (fileOfUnion nestedAlternatives) [0, 0, 0] rfl (around nofun nofun nofun)
  rw [samePlace (around nofun nofun nofun)] at there
  rcases both with ⟨obj, -⟩ | ⟨cs, ds, rfl, rfl, perm⟩
  · exact absurd obj narrow
  · exact ⟨same, cs, ds, f', capped.alone, capped'.alone, perm, whole, there⟩

end Bindgen
