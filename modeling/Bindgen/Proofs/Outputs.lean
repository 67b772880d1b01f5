import Bindgen.Command.Run

/-! # What an output is called and what it holds

The bindings of a file stand under a root name, which is set or else taken from the
name of the output, and are written line by line. Both are said here without the
functions that compute them.
-/

namespace Bindgen

/-! ## Lines as bytes -/

/-- The name has a dot inside it, and the extension stands behind the last dot. -/
structure CutsInto (name stem extension : String) : Prop where
  parts : name = stem ++ "." ++ extension
  before : stem ≠ ""
  behind : extension ≠ ""
  last : '.' ∉ extension.toList

/-- The stem is the name without its extension, if it has one. -/
inductive IsStem (name : String) : String -> Prop
  | cut {stem extension : String} (h : CutsInto name stem extension) : IsStem name stem
  | whole (uncut : ∀ stem extension, ¬ CutsInto name stem extension) : IsStem name name

theorem takeWhile_reverse_of_split (before : List Char) {behind : List Char} (last : '.' ∉ behind) :
    (before ++ '.' :: behind).reverse.takeWhile (· != '.') = behind.reverse := by
  have dotless : ∀ c ∈ behind.reverse, (c != '.') = true := by
    intro c hc
    rw [bne_iff_ne]
    rintro rfl
    exact last (List.mem_reverse.mp hc)
  rw [List.reverse_append, List.reverse_cons, List.append_assoc,
    List.takeWhile_append_of_pos dotless]
  simp

/-- A text is split at its last dot in one way. -/
theorem split_inj {before before' behind behind' : List Char} (last : '.' ∉ behind)
    (last' : '.' ∉ behind') (same : before ++ '.' :: behind = before' ++ '.' :: behind') :
    before = before' ∧ behind = behind' := by
  have reversed := takeWhile_reverse_of_split before last
  rw [same, takeWhile_reverse_of_split before' last'] at reversed
  obtain rfl := List.reverse_inj.mp reversed
  exact ⟨List.append_cancel_right same, rfl⟩

theorem exists_split {name : List Char} (dotted : '.' ∈ name) :
    ∃ before behind, name = before ++ '.' :: behind ∧ '.' ∉ behind := by
  obtain ⟨behind, before, reversed, last⟩ :=
    List.eq_append_cons_of_mem (List.mem_reverse.mpr dotted)
  refine ⟨before.reverse, behind.reverse, ?_, fun h => last (List.mem_reverse.mp h)⟩
  rw [← List.reverse_reverse name, reversed]
  simp

theorem CutsInto.toList_eq {name stem extension : String} (h : CutsInto name stem extension) :
    name.toList = stem.toList ++ '.' :: extension.toList := by
  rw [h.parts]
  simp

theorem IsStem.unique {name stem stem' : String} (h : IsStem name stem) (h' : IsStem name stem') :
    stem = stem' := by
  cases h with
  | cut cut =>
      cases h' with
      | cut cut' =>
          have same := cut.toList_eq.symm.trans cut'.toList_eq
          exact String.toList_inj.mp (split_inj cut.last cut'.last same).1
      | whole uncut => exact absurd cut (uncut _ _)
  | whole uncut =>
      cases h' with
      | cut cut' => exact absurd cut' (uncut _ _)
      | whole => rfl

/-- A name is cut at its last dot, if there is something on both sides of it. -/
theorem cutsInto_of_split {name : String} {before behind : List Char}
    (split : name.toList = before ++ '.' :: behind) (last : '.' ∉ behind) (some : before ≠ [])
    (more : behind ≠ []) : CutsInto name (String.ofList before) (String.ofList behind) where
  parts := by
    rw [← String.toList_inj, split]
    simp
  before := by simpa [← String.toList_inj] using some
  behind := by simpa [← String.toList_inj] using more
  last := by rwa [String.toList_ofList]

theorem Path.isStem_stem (p : Path) : IsStem (p.names.getLast?.getD "") p.stem := by
  unfold Path.stem
  generalize p.names.getLast?.getD "" = name
  by_cases dotted : '.' ∈ name.toList
  · obtain ⟨before, behind, split, last⟩ := exists_split dotted
    have rest : name.toList.take (name.toList.length - behind.reverse.length - 1) = before := by
      have length : name.toList.length - behind.reverse.length - 1 = before.length := by
        rw [split, List.length_append, List.length_cons, List.length_reverse]
        omega
      rw [length, split, List.take_left]
    have extension : name.toList.reverse.takeWhile (· != '.') = behind.reverse := by
      rw [split, takeWhile_reverse_of_split before last]
    have contains : name.toList.contains '.' = true := List.contains_iff_mem.mpr dotted
    simp only [extension, rest, contains, List.isEmpty_reverse, Bool.not_true, Bool.or_false]
    split
    case isFalse inside =>
        simp only [Bool.or_eq_true, List.isEmpty_iff, not_or] at inside
        exact .cut (cutsInto_of_split split last inside.2 inside.1)
    case isTrue outside =>
        rw [String.ofList_toList]
        refine .whole fun stem extension cut => ?_
        obtain ⟨rfl, rfl⟩ := split_inj cut.last last (cut.toList_eq.symm.trans split)
        simp [cut.before, cut.behind] at outside
  · have contains : name.toList.contains '.' = false := by simpa using dotted
    simp only [contains, Bool.not_false, Bool.or_true, if_true, String.ofList_toList]
    refine .whole fun stem extension cut => dotted ?_
    rw [cut.toList_eq]
    simp

/-! ## Root names -/

/-- The root name is the one that is set, unless that is empty, and else the stem of the
last name of the output. -/
inductive IsRootName (settings : Settings) (output : Path) : String -> Prop
  | set {name : String} (given : settings.rootName = some name) (nonempty : name ≠ "") :
      IsRootName settings output name
  | stem {stem : String} (unset : ∀ name, settings.rootName = some name -> name = "")
      (cut : IsStem (output.names.getLast?.getD "") stem) : IsRootName settings output stem

theorem IsRootName.unique {settings : Settings} {output : Path} {root root' : String}
    (h : IsRootName settings output root) (h' : IsRootName settings output root') :
    root = root' := by
  cases h with
  | set given nonempty =>
      cases h' with
      | set given' => exact Option.some.inj (given.symm.trans given')
      | stem unset => exact absurd (unset root given) nonempty
  | stem unset cut =>
      cases h' with
      | set given nonempty => exact absurd (unset root' given) nonempty
      | stem _ cut' => exact cut.unique cut'

theorem isRootName_rootFor (settings : Settings) (output : Path) :
    IsRootName settings output (settings.rootFor output) := by
  unfold Settings.rootFor
  cases given : settings.rootName with
  | none => exact .stem (by simp [given]) output.isStem_stem
  | some name =>
      dsimp only
      split
      case isTrue empty =>
          refine .stem ?_ output.isStem_stem
          intro other same
          rw [given] at same
          exact Option.some.inj same ▸ String.isEmpty_iff.mp empty
      case isFalse nonempty =>
          exact .set given fun empty => nonempty (String.isEmpty_iff.mpr empty)

end Bindgen
