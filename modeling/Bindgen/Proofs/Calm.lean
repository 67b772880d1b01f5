import Bindgen.Proofs.Heads
import Bindgen.Proofs.Parts

/-! # What the passes leave alone

Once results are spelled out, no pass makes a result the object itself, makes a
type generic or spells the marker of arrays: the passes are calm. Those that
rename, narrow or quote also put nothing into a declaration that was not in it,
and keep the entries of modules.
-/

namespace Bindgen

/-! ## What no pass behind the first turns up -/

def Decl.isSelf : Decl -> Bool
  | .self => true
  | _ => false

def Decl.returnsSelf : Decl -> Bool
  | .function s => s.result.isSelf
  | _ => false

theorem Decl.resultOf_of_not_returnsSelf {type d : Decl} (h : d.returnsSelf = false) :
    Decl.resultOf type d = d := by
  cases d with
  | function s =>
      obtain ⟨emit, isStatic, name, typeParams, params, result⟩ := s
      cases result with
      | self => cases h
      | _ => rfl
  | _ => rfl

def Decl.isResolved : Decl -> Bool
  | .interface i => !i.members.any Decl.returnsSelf
  | _ => true

/-- All that a declaration says about the object itself. -/
def Decl.selfUse (d : Decl) : Bool × Bool × Bool :=
  (d.isSelf, d.returnsSelf, d.isResolved)

def Decl.Unmarked (d : Decl) : Prop :=
  ∀ argument, d ≠ .generic (.named nodeArrayMarker) [argument]

/-- The rewriting makes no result the object itself, no type generic, and no name
the marker of arrays. -/
structure Rewriting.Calm (w : Rewriting) : Prop where
  selfUse : ∀ d, (w.apply d).selfUse = d.selfUse := by
    intro d
    cases d <;> rfl
  generic : ∀ d base arguments,
      w.apply d = .generic base arguments -> d = .generic base arguments := by
    intro d base arguments h
    cases d <;> first | exact h | cases h
  marker : ∀ d, w.apply d = .named nodeArrayMarker -> d = .named nodeArrayMarker := by
    intro d h
    cases d <;> first | exact h | cases h

theorem Rewriting.Calm.isSelf {w : Rewriting} (hw : w.Calm) (d : Decl) :
    (w.apply d).isSelf = d.isSelf :=
  congrArg (·.1) (hw.selfUse d)

theorem Rewriting.Calm.returnsSelf {w : Rewriting} (hw : w.Calm) (d : Decl) :
    (w.apply d).returnsSelf = d.returnsSelf :=
  congrArg (·.2.1) (hw.selfUse d)

theorem Rewriting.Calm.isResolved {w : Rewriting} (hw : w.Calm) (d : Decl) :
    (w.apply d).isResolved = d.isResolved :=
  congrArg (·.2.2) (hw.selfUse d)

/-- Mapping members keeps an interface resolved if it keeps what they return. -/
theorem any_returnsSelf_map {g : Decl -> Decl} (hg : ∀ d, (g d).returnsSelf = d.returnsSelf)
    (members : List Decl) :
    (members.map g).any Decl.returnsSelf = members.any Decl.returnsSelf := by
  rw [List.any_map]
  congr 1
  funext d
  exact hg d

section

variable {w : Rewriting}

theorem Decl.isSelf_rewrite (hw : w.Calm) (d : Decl) : (d.rewrite w).isSelf = d.isSelf := by
  rw [Decl.rewrite_eq_apply, hw.isSelf]
  cases d <;> rfl

theorem Decl.returnsSelf_rewrite (hw : w.Calm) (d : Decl) :
    (d.rewrite w).returnsSelf = d.returnsSelf := by
  rw [Decl.rewrite_eq_apply, hw.returnsSelf]
  cases d with
  | function s => exact Decl.isSelf_rewrite hw s.result
  | _ => rfl

theorem Decl.isResolved_rebuild (hw : w.Calm) (d : Decl) :
    (d.rebuild w).isResolved = d.isResolved := by
  cases d with
  | interface i =>
      simp only [Decl.rebuild, Decl.isResolved, any_returnsSelf_map (Decl.returnsSelf_rewrite hw)]
  | _ => rfl

theorem Decl.isResolved_rewrite (hw : w.Calm) (d : Decl) :
    (d.rewrite w).isResolved = d.isResolved := by
  rw [Decl.rewrite_eq_apply, hw.isResolved, Decl.isResolved_rebuild hw]

theorem Decl.selfUse_rewrite (hw : w.Calm) (d : Decl) : (d.rewrite w).selfUse = d.selfUse := by
  rw [Decl.selfUse, Decl.isSelf_rewrite hw, Decl.returnsSelf_rewrite hw,
    Decl.isResolved_rewrite hw, Decl.selfUse]

theorem Decl.Unmarked.rebuild (hw : w.Calm) {d : Decl} (h : d.Unmarked) :
    (d.rebuild w).Unmarked := by
  intro argument marked
  cases d with
  | generic base arguments =>
      simp only [Decl.rebuild, Decl.generic.injEq] at marked
      have name : base = .named nodeArrayMarker := by
        have rebuilt := hw.marker _ (Decl.rewrite_eq_apply w base ▸ marked.1)
        cases base <;> simp_all [Decl.rebuild]
      obtain ⟨before, rfl, -⟩ := List.map_eq_singleton_iff.mp marked.2
      exact h before (by rw [name])
  | _ => simp [Decl.rebuild] at marked

theorem Decl.Unmarked.apply (hw : w.Calm) {d : Decl} (h : d.Unmarked) : (w.apply d).Unmarked :=
  fun argument marked => h argument (hw.generic d _ _ marked)

end

theorem nodeArrayMarker_ne_quote (name : String) : "\x27" ++ name ≠ nodeArrayMarker := by
  intro h
  have chars := congrArg String.toList h
  rw [String.toList_append] at chars
  exact absurd (List.cons.inj chars).1 (by decide)

theorem Word.eq_of_escape_eq_marker {name : String} (h : Word.escape name = nodeArrayMarker) :
    name = nodeArrayMarker := by
  unfold Word.escape at h
  split at h
  · exact h
  · split at h
    · have chars := congrArg String.toList h
      rw [String.toList_ofList] at chars
      exact absurd (List.cons.inj chars).1 (by decide)
    · exact h

theorem Decl.collapseArray_cases (marker : String) (d : Decl) :
    Decl.collapseArray marker d = d ∨
      ∃ element, d = .generic (.named marker) [element] ∧
        Decl.collapseArray marker d = .array element := by
  unfold Decl.collapseArray
  split
  case h_1 name element =>
      split
      case isTrue isMarker => exact .inr ⟨element, by rw [isMarker], rfl⟩
      case isFalse => exact .inl rfl
  case h_2 => exact .inl rfl

namespace Rewriting

theorem collapseArrays_calm (marker : String) : (collapseArrays marker).Calm where
  selfUse d := by
    rcases d.collapseArray_cases marker with same | ⟨element, rfl, collapsed⟩
    · exact congrArg Decl.selfUse same
    · exact (congrArg Decl.selfUse collapsed).trans rfl
  generic d base arguments h := by
    rcases d.collapseArray_cases marker with same | ⟨element, rfl, collapsed⟩
    · exact same.symm.trans h
    · cases collapsed.symm.trans h
  marker d h := by
    rcases d.collapseArray_cases marker with same | ⟨element, rfl, collapsed⟩
    · exact same.symm.trans h
    · cases collapsed.symm.trans h

theorem renameDates_calm : renameDates.Calm where
  marker d h := by
    cases d with
    | named name =>
        simp only [renameDates, ofTypes, Decl.renameDate, Decl.named.injEq] at h
        split at h
        · exact absurd h (by decide)
        · rw [h]
    | _ => cases h

theorem splitStatics_calm (suffix : String) : (splitStatics suffix).Calm where

theorem addExports_calm (name suffix : String) : (addExports name suffix).Calm where

theorem escapeNames_calm : escapeNames.Calm where
  marker d h := by
    cases d with
    | named name => rw [Word.eq_of_escape_eq_marker (Decl.named.inj h)]
    | _ => cases h

theorem quoteNames_calm (bound : List String) : (quoteNames bound).Calm where
  marker d h := by
    cases d with
    | named name =>
        simp only [quoteNames, ofTypes, Decl.quoteName, Decl.named.injEq] at h
        split at h
        · exact absurd h (nodeArrayMarker_ne_quote name)
        · rw [h]
    | _ => cases h

theorem specializeOverloads_calm : specializeOverloads.Calm where
  selfUse d := by
    cases d with
    | function s =>
        have result : s.specialize.result = s.result := by
          unfold Signature.specialize
          split <;> rfl
        simp only [specializeOverloads, ofTypes, Decl.specialize, Decl.selfUse, Decl.isSelf,
          Decl.returnsSelf, Decl.isResolved, result]
    | _ => rfl

end Rewriting

theorem Decl.cappedUnion_cases (limit : Int) (optional : Bool) (alternatives : List Decl) :
    Decl.cappedUnion limit (.union optional alternatives) = .obj ∨
      ((Decl.dedupe alternatives).length : Int) ≤ limit ∧
        Decl.cappedUnion limit (.union optional alternatives) =
          .union optional (Decl.dedupe alternatives) := by
  by_cases wide : limit < (Decl.dedupe alternatives).length
  · exact .inl (if_pos wide)
  · exact .inr ⟨by omega, if_neg wide⟩

theorem Decl.selfUse_quoted (d : Decl) (typeParams : List Decl) :
    (d.quoted typeParams).selfUse = d.selfUse := by
  unfold Decl.quoted
  split
  · rfl
  · exact d.selfUse_rewrite (Rewriting.quoteNames_calm _)

theorem Decl.selfUse_quotedFunction (d : Decl) : d.quotedFunction.selfUse = d.selfUse := by
  cases d with
  | function s => exact Decl.selfUse_quoted _ s.typeParams
  | _ => rfl

namespace Rewriting

theorem capUnions_calm (limit : Int) : (capUnions limit).Calm where
  selfUse d := by
    cases d with
    | union optional alternatives =>
        rcases Decl.cappedUnion_cases limit optional alternatives with obj | ⟨-, capped⟩
        · exact (congrArg Decl.selfUse obj).trans rfl
        · exact (congrArg Decl.selfUse capped).trans rfl
    | _ => rfl
  generic d base arguments h := by
    cases d with
    | union optional alternatives =>
        rcases Decl.cappedUnion_cases limit optional alternatives with obj | ⟨-, capped⟩
        · cases obj.symm.trans h
        · cases capped.symm.trans h
    | _ => exact h
  marker d h := by
    cases d with
    | union optional alternatives =>
        rcases Decl.cappedUnion_cases limit optional alternatives with obj | ⟨-, capped⟩
        · exact absurd (Decl.named.inj (obj.symm.trans h)) (by decide)
        · cases capped.symm.trans h
    | _ => exact h

theorem quoteFunctions_calm : quoteFunctions.Calm where
  selfUse d := by
    cases d with
    | interface i =>
        have member : ∀ m : Decl, m.quotedFunction.returnsSelf = m.returnsSelf := fun m =>
          congrArg (·.2.1) m.selfUse_quotedFunction
        simp only [quoteFunctions, ofTypes, Decl.quotedMembers, Decl.selfUse, Decl.isSelf,
          Decl.returnsSelf, Decl.isResolved, any_returnsSelf_map member]
    | _ => rfl

theorem quoteTypes_calm : quoteTypes.Calm where
  selfUse d := by
    cases d with
    | interface i => exact Decl.selfUse_quoted _ i.typeParams
    | typeAlias a => exact Decl.selfUse_quoted _ a.typeParams
    | _ => rfl
  generic d base arguments h := by
    -- An interface and an alias keep their heads, and a generic type has another one.
    have head := congrArg Decl.head h
    cases d with
    | interface i => cases (Decl.head_quoted _ _).symm.trans head
    | typeAlias a => cases (Decl.head_quoted _ _).symm.trans head
    | _ => exact h
  marker d h := by
    have head := congrArg Decl.head h
    cases d with
    | interface i => cases (Decl.head_quoted _ _).symm.trans head
    | typeAlias a => cases (Decl.head_quoted _ _).symm.trans head
    | _ => exact h

end Rewriting

/-! ## Passes that add nothing -/

/-- The function leaves the entries of modules alone, and makes no module. -/
def Rewriting.KeepsEntries (w : Rewriting) : Prop :=
  ∀ d m, w.apply d = .module m -> ∃ n, d = .module n ∧ n.entries = m.entries

namespace Rewriting

theorem collapseArrays_shrinks (marker : String) : (collapseArrays marker).Shrinks := by
  intro d c hc
  simp only [collapseArrays, ofTypes] at hc
  rcases d.collapseArray_cases marker with same | ⟨element, rfl, collapsed⟩
  · rwa [same] at hc
  · rw [collapsed] at hc
    exact List.mem_cons_of_mem _ hc

theorem collapseArrays_keepsEntries (marker : String) : (collapseArrays marker).KeepsEntries := by
  intro d m hm
  rcases d.collapseArray_cases marker with same | ⟨element, rfl, collapsed⟩
  · exact ⟨m, same.symm.trans hm, rfl⟩
  · cases collapsed.symm.trans hm

theorem renameDates_shrinks : renameDates.Shrinks := by
  intro d c hc
  cases d <;> exact hc

theorem renameDates_keepsEntries : renameDates.KeepsEntries := by
  intro d m hm
  cases d <;> first | exact ⟨_, hm, rfl⟩ | cases hm

theorem escapeNames_shrinks : escapeNames.Shrinks := by
  intro d c hc
  cases d <;> exact hc

theorem quoteNames_shrinks (bound : List String) : (quoteNames bound).Shrinks := by
  intro d c hc
  cases d <;> exact hc

theorem specializeOverloads_shrinks : specializeOverloads.Shrinks := by
  intro d c hc
  cases d with
  | function s =>
      have kept : s.specialize.typeParams = s.typeParams ∧ s.specialize.result = s.result ∧
          ∀ p ∈ s.specialize.params, p ∈ s.params := by
        unfold Signature.specialize
        split
        case h_1 params => exact ⟨rfl, rfl, fun p hp => params ▸ List.mem_cons_of_mem _ hp⟩
        case h_2 => exact ⟨rfl, rfl, fun _ => id⟩
      obtain ⟨typeParams, result, params⟩ := kept
      simp only [specializeOverloads, ofTypes, Decl.specialize, Decl.children, typeParams, result,
        List.mem_append, List.mem_map] at hc ⊢
      refine hc.imp_left (.imp_right ?_)
      rintro ⟨p, hp, same⟩
      exact ⟨p, params p hp, same⟩
  | _ => exact hc

theorem capUnions_shrinks (limit : Int) : (capUnions limit).Shrinks := by
  intro d c hc
  cases d with
  | union optional alternatives =>
      simp only [capUnions, ofTypes] at hc
      rcases Decl.cappedUnion_cases limit optional alternatives with obj | ⟨-, capped⟩
      · rw [obj] at hc
        cases hc
      · rw [capped] at hc
        exact Decl.mem_of_mem_dedupe hc
  | _ => exact hc

end Rewriting

end Bindgen
