import Bindgen.Proofs.Events
import Bindgen.Proofs.SelfTypes

/-! # The order of a transformation

A transformation visits every place of a declaration once, what is inside a place before
the place itself. So a rule that records what it is given lists the parts in this order.
-/

namespace Bindgen

/-! ## Places in the order of visits -/

/-- The place comes first where what is inside comes before what is around it, and
otherwise what stands on the left comes first. -/
def PlaceBefore : List Nat -> List Nat -> Prop
  | [], _ => False
  | _ :: _, [] => True
  | k :: ks, l :: ls => k < l ∨ k = l ∧ PlaceBefore ks ls

/-- Places in the trees of a list, of which the first has the number `n`. -/
def placesFrom (n : Nat) : List (List (List Nat)) -> List (List Nat)
  | [] => []
  | places :: rest => places.map (n :: ·) ++ placesFrom (n + 1) rest

theorem mem_placesFrom {place : List Nat} {n : Nat} {trees : List (List (List Nat))} :
    place ∈ placesFrom n trees ↔
      ∃ k places inside, trees[k]? = some places ∧ inside ∈ places ∧ place = (n + k) :: inside := by
  induction trees generalizing n with
  | nil => simp [placesFrom]
  | cons places rest ih =>
      rw [placesFrom, List.mem_append, List.mem_map, ih]
      constructor
      · rintro (⟨inside, here, rfl⟩ | ⟨k, others, inside, tree, there, rfl⟩)
        · exact ⟨0, places, inside, rfl, here, rfl⟩
        · refine ⟨k + 1, others, inside, tree, there, ?_⟩
          exact congrArg (· :: inside) (Nat.add_right_comm n 1 k)
      · rintro ⟨k, others, inside, tree, there, rfl⟩
        cases k with
        | zero =>
            cases tree
            exact .inl ⟨inside, there, rfl⟩
        | succ k =>
            exact .inr ⟨k, others, inside, tree, there,
              congrArg (· :: inside) (Nat.add_right_comm n 1 k).symm⟩

theorem pairwise_placesFrom {n : Nat} {trees : List (List (List Nat))}
    (each : ∀ places ∈ trees, places.Pairwise PlaceBefore) :
    (placesFrom n trees).Pairwise PlaceBefore := by
  induction trees generalizing n with
  | nil => exact .nil
  | cons places rest ih =>
      rw [placesFrom, List.pairwise_append, List.pairwise_map]
      refine ⟨?_, ih fun others there => each others (List.mem_cons_of_mem places there), ?_⟩
      · exact (each places List.mem_cons_self).imp fun before => .inr ⟨rfl, before⟩
      · intro first here second there
        obtain ⟨inside, -, rfl⟩ := List.mem_map.mp here
        obtain ⟨k, -, other, -, -, rfl⟩ := mem_placesFrom.mp there
        exact .inl (by omega)

namespace Decl

/-- The places of a declaration, in the order in which they are visited. -/
def postorder (d : Decl) : List (List Nat) :=
  placesFrom 0 (d.children.attach.map fun ⟨c, _h⟩ => c.postorder) ++ [[]]
termination_by sizeOf d
decreasing_by exact sizeOf_lt_of_mem_children _h

theorem postorder_eq (d : Decl) :
    d.postorder = placesFrom 0 (d.children.map postorder) ++ [[]] := by
  rw [postorder]
  simp

/-- Every place is listed. -/
theorem mem_postorder {d : Decl} {place : List Nat} :
    place ∈ d.postorder ↔ (d.partAt? place).isSome := by
  induction d using children_induction generalizing place with
  | step d ih =>
      rw [postorder_eq, List.mem_append, List.mem_singleton, mem_placesFrom,
        Option.isSome_iff_exists]
      constructor
      · rintro (⟨k, places, inside, tree, there, rfl⟩ | rfl)
        · rw [List.getElem?_map, Option.map_eq_some_iff] at tree
          obtain ⟨c, child, rfl⟩ := tree
          obtain ⟨e, part⟩ := Option.isSome_iff_exists.mp
            ((ih c (List.mem_of_getElem? child)).mp there)
          rw [Nat.zero_add]
          exact ⟨e, partAt?_cons_eq_some_iff.mpr ⟨c, child, part⟩⟩
        · exact ⟨d, rfl⟩
      · rintro ⟨e, part⟩
        cases place with
        | nil => exact .inr rfl
        | cons k inside =>
            obtain ⟨c, child, part⟩ := partAt?_cons_eq_some_iff.mp part
            have there := (ih c (List.mem_of_getElem? child)).mpr (Option.isSome_of_eq_some part)
            refine .inl ⟨k, c.postorder, inside, ?_, there, by rw [Nat.zero_add]⟩
            rw [List.getElem?_map, child, Option.map_some]

/-- The places are listed in order, so that none is listed twice. -/
theorem pairwise_postorder (d : Decl) : d.postorder.Pairwise PlaceBefore := by
  induction d using children_induction with
  | step d ih =>
      rw [postorder_eq, List.pairwise_append]
      refine ⟨pairwise_placesFrom ?_, List.pairwise_singleton _ _, ?_⟩
      · intro places tree
        obtain ⟨c, child, rfl⟩ := List.mem_map.mp tree
        exact ih c child
      · intro first inside last whole
        obtain ⟨k, -, inner, -, -, rfl⟩ := mem_placesFrom.mp inside
        rw [List.mem_singleton.mp whole]
        trivial

theorem map_placesFrom {n : Nat} {cs : List Decl} {part : List Nat -> Option Decl}
    (child : ∀ k c inside, cs[k]? = some c -> part ((n + k) :: inside) = c.partAt? inside)
    (each : ∀ c ∈ cs, c.postorder.map (partAt? · c) = c.parts.map some) :
    (placesFrom n (cs.map postorder)).map part = (cs.flatMap parts).map some := by
  induction cs generalizing n with
  | nil => rfl
  | cons c cs ih =>
      have first : part ∘ (n :: ·) = (partAt? · c) := funext fun inside => child 0 c inside rfl
      rw [List.map_cons, placesFrom, List.map_append, List.map_map, first,
        each c List.mem_cons_self, List.flatMap_cons, List.map_append]
      refine congrArg _ (ih ?_ fun b there => each b (List.mem_cons_of_mem c there))
      intro k b inside there
      rw [← child (k + 1) b inside there, Nat.add_right_comm]
      rfl

/-- The parts of a declaration are what stands at its places. -/
theorem map_postorder (d : Decl) : d.postorder.map (partAt? · d) = d.parts.map some := by
  induction d using children_induction with
  | step d ih =>
      have inside : (placesFrom 0 (d.children.map postorder)).map (partAt? · d) =
          (d.children.flatMap parts).map some := by
        refine map_placesFrom (fun k c inside child => ?_) ih
        rw [Nat.zero_add, partAt?, child, Option.bind_some]
      rw [postorder_eq, List.map_append, inside, parts_eq, List.map_append]
      rfl

end Decl

/-! ## The rule that lists what it is given -/

def Rule.recorder : Rule Decl := fun d => do
  .note d
  .done d

theorem Rule.recorder_follows : Rule.recorder.Follows .unchanged := fun _ => rfl

theorem Decl.events_recorder (d : Decl) : (d.transform Rule.recorder).events = d.parts := by
  have own : ∀ e : Decl, (Rule.recorder (e.rebuild .unchanged)).events = [e] := by
    intro e
    rw [Decl.rebuild_eq_self fun c _ => c.rewrite_unchanged]
    rfl
  rw [Decl.events_transform Rule.recorder_follows]
  simp only [own]
  exact List.flatMap_singleton' d.parts

end Bindgen
