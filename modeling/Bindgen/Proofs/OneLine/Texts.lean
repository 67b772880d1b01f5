import Bindgen.Proofs.Parts
import Bindgen.Proofs.Words
import Bindgen.Syntax.Kind
import Bindgen.Text.Quoted

/-! # Texts on one line

A text is on one line if there is no line feed in it, and a declaration is if
its own texts are: its names and what else of it is printed as it stands. If
all parts of a type expression are on one line, then so is its text.
-/

namespace Bindgen

namespace Text

def OneLine (s : String) : Prop :=
  '\n' ∉ s.toList

instance (s : String) : Decidable (OneLine s) :=
  inferInstanceAs (Decidable (¬ _))

@[simp] theorem oneLine_append {s t : String} : OneLine (s ++ t) ↔ OneLine s ∧ OneLine t := by
  simp [OneLine]

/-- A text whose characters come from another one. -/
theorem OneLine.of_mem {s : String} {cs : List Char} (h : OneLine s)
    (mem : ∀ c ∈ cs, c ∈ s.toList) : OneLine (String.ofList cs) := by
  intro found
  rw [String.toList_ofList] at found
  exact h (mem _ found)

theorem oneLine_join {separator : String} (hseparator : OneLine separator) {ss : List String}
    (h : ∀ s ∈ ss, OneLine s) : OneLine (join separator ss) := by
  fun_induction join separator ss with
  | case1 => decide
  | case2 s => exact h s List.mem_cons_self
  | case3 s t rest ih =>
      obtain ⟨first, rest⟩ := List.forall_mem_cons.mp h
      simp [first, hseparator, ih rest]

theorem oneLine_toString (n : Nat) : OneLine (toString n) := by
  intro found
  exact absurd (isDigit_of_mem_toString found) (by decide)

theorem OneLine.encode {s : String} (h : OneLine s) : OneLine (Quoted.encode s) := by
  have chars : ∀ cs : List Char, '\n' ∈ Quoted.encodeChars cs -> '\n' ∈ cs := by
    intro cs found
    induction cs with
    | nil => exact found
    | cons c cs ih =>
        rw [Quoted.encodeChars] at found
        split at found
        · rcases List.mem_cons.mp found with slash | found
          · exact absurd slash (by decide)
          · exact List.mem_cons.mpr ((List.mem_cons.mp found).imp_right ih)
        · exact List.mem_cons.mpr ((List.mem_cons.mp found).imp_right ih)
  intro found
  rw [Quoted.encode, String.toList_ofList] at found
  exact h (chars _ found)

theorem mem_of_mem_fields {isSeparator : Char -> Bool} {cs part : List Char} {c : Char}
    (hpart : part ∈ fields isSeparator cs) (hc : c ∈ part) : c ∈ cs := by
  induction cs generalizing part with
  | nil =>
      rw [fields, List.mem_singleton] at hpart
      rwa [hpart] at hc
  | cons d ds ih =>
      rw [fields] at hpart
      split at hpart
      · rcases List.mem_cons.mp hpart with rfl | hpart
        · cases hc
        · exact List.mem_cons_of_mem d (ih hpart hc)
      · split at hpart
        case h_1 none => exact absurd none (fields_ne_nil isSeparator ds)
        case h_2 first rest found =>
            rcases List.mem_cons.mp hpart with rfl | hpart
            · rcases List.mem_cons.mp hc with rfl | hc
              · exact List.mem_cons_self
              · exact List.mem_cons_of_mem d (ih (found ▸ List.mem_cons_self) hc)
            · exact List.mem_cons_of_mem d (ih (found ▸ List.mem_cons_of_mem first hpart) hc)

theorem OneLine.dotted {s : String} (h : OneLine s) : ∀ t ∈ dotted s, OneLine t := by
  intro t ht
  obtain ⟨part, hpart, rfl⟩ := List.mem_map.mp ht
  exact h.of_mem fun c hc => mem_of_mem_fields hpart hc

theorem OneLine.unquote {s : String} (h : OneLine s) : OneLine (Syntax.unquote s) :=
  h.of_mem fun _ hc => (List.mem_filter.mp hc).1

theorem OneLine.escape {s : String} (h : OneLine s) : OneLine (Word.escape s) := by
  intro found
  rcases Word.mem_escape found with found | tick
  · exact h found
  · exact absurd tick (by decide)

theorem OneLine.unescape {s : String} (h : OneLine s) : OneLine (Word.unescape s) :=
  fun found => h (Word.mem_unescape found)

end Text

open Text

/-! ## Declarations -/

/-- What is printed of a case of an enum. Only numbers are. -/
def EnumCase.texts (c : EnumCase) : List String :=
  c.name :: if c.type = .numeric then c.value.toList else []

/-- The texts of a declaration itself, without those of its children. -/
def Decl.texts : Decl -> List String
  | .interface i => [i.name]
  | .enum e => e.name :: e.cases.flatMap EnumCase.texts
  | .property p => p.name :: p.emit.toList
  | .param p => [p.name]
  | .named name => [name]
  | .function s => s.name.toList ++ s.emit.toList
  | .typeAlias a => [a.name]
  | .module m => [m.name]
  | .file f => f.name :: f.opens
  | .var v => [v.name]
  | .literal text => [text]
  | .imported i => i.binding :: i.type :: i.path
  | _ => []

def Decl.OneLine (d : Decl) : Prop :=
  ∀ s ∈ d.texts, Text.OneLine s

theorem Decl.texts_rebuild (w : Rewriting) (d : Decl) : (d.rebuild w).texts = d.texts := by
  cases d <;> rfl

theorem Decl.every_named_oneLine {name : String} (h : Text.OneLine name) :
    (Decl.named name).Every Decl.OneLine :=
  Decl.every_named (List.forall_mem_singleton.mpr h)

/-! ## Types -/

theorem oneLine_unionText {ss : List String} (h : ∀ s ∈ ss, Text.OneLine s) :
    Text.OneLine (unionText ss) := by
  unfold unionText
  split
  case h_1 => decide
  case h_2 alternative => exact h alternative List.mem_cons_self
  case h_3 =>
      have alternatives : Text.OneLine (join ", " ss) := oneLine_join (by decide) h
      simp only [oneLine_append, oneLine_toString, alternatives, and_true]
      decide

theorem oneLine_argumentsText {ss : List String} (h : ∀ s ∈ ss, Text.OneLine s) :
    Text.OneLine (argumentsText ss) := by
  unfold argumentsText
  split
  case h_1 => decide
  case h_2 =>
      have arguments : Text.OneLine (join ", " ss) := oneLine_join (by decide) h
      simp only [oneLine_append, arguments, and_true]
      decide

theorem oneLine_arrowText {params : List String} {result : String}
    (hparams : ∀ s ∈ params, Text.OneLine s) (hresult : Text.OneLine result) :
    Text.OneLine (arrowText params result) := by
  have domain : ∀ s ∈ (if params.isEmpty then ["unit"] else params) ++ [result],
      Text.OneLine s := by
    refine List.forall_mem_append.mpr ⟨?_, List.forall_mem_singleton.mpr hresult⟩
    split
    · exact List.forall_mem_singleton.mpr (by decide)
    · exact hparams
  have arrows : Text.OneLine (join " -> " ((if params.isEmpty then ["unit"] else params) ++
      [result])) := oneLine_join (by decide) domain
  simp only [arrowText, oneLine_append, arrows, and_true]
  decide

theorem oneLine_optionMark (optional : Bool) : Text.OneLine (optionMark optional) := by
  cases optional <;> decide

/-- The parameters of a function type are no types, so the types that are printed
can be children of children. -/
theorem Decl.Every.oneLine_typeTexts {d : Decl} (h : d.Every Decl.OneLine) :
    Text.OneLine d.typeText ∧ ∀ c ∈ d.children, Text.OneLine c.typeText := by
  induction d using Decl.children_induction with
  | step d ih =>
      have inside : ∀ c ∈ d.children, Text.OneLine c.typeText := fun c hc =>
        (ih c hc (h.child hc)).1
      have all : ∀ ds : List Decl, (∀ c ∈ ds, c ∈ d.children) ->
          ∀ s ∈ Decl.typeTexts ds, Text.OneLine s := by
        intro ds hds s hs
        rw [Decl.typeTexts_eq_map] at hs
        obtain ⟨c, hc, rfl⟩ := List.mem_map.mp hs
        exact inside c (hds c hc)
      refine ⟨?_, inside⟩
      cases d with
      | named name => exact h.self name List.mem_cons_self
      | array element =>
          simp only [Decl.typeText, oneLine_append, inside element List.mem_cons_self, and_true]
          decide
      | union optional alternatives =>
          rw [Decl.typeText, oneLine_append]
          exact ⟨oneLine_unionText (all alternatives fun _ => id), oneLine_optionMark optional⟩
      | generic base arguments =>
          rw [Decl.typeText, oneLine_append]
          exact ⟨inside base List.mem_cons_self,
            oneLine_argumentsText (all arguments fun _ => List.mem_cons_of_mem base)⟩
      | function s =>
          obtain ⟨emit, isStatic, name, typeParams, params, result⟩ := s
          rw [Decl.typeText, Param.typeTexts_eq_map]
          refine oneLine_arrowText ?_ (inside result (by simp [Decl.children]))
          intro s hs
          obtain ⟨p, hp, rfl⟩ := List.mem_map.mp hs
          have hparam : .param p ∈ (Decl.function
              ⟨emit, isStatic, name, typeParams, params, result⟩).children := by
            simp [Decl.children, hp]
          exact (ih _ hparam (h.child hparam)).2 p.type List.mem_cons_self
      | tuple elements =>
          rw [Decl.typeText]
          exact oneLine_join (by decide) (all elements fun _ => id)
      | var v =>
          obtain ⟨declared, name, type⟩ := v
          have nameText := h.self name List.mem_cons_self
          have typeText := inside type List.mem_cons_self
          simp only [Decl.typeText, oneLine_append, nameText, typeText, and_true]
          decide
      | literal text =>
          rw [Decl.typeText]
          decide
      | _ =>
          rw [Decl.typeText]
          · decide
          all_goals simp

theorem Decl.Every.oneLine_typeText {d : Decl} (h : d.Every Decl.OneLine) :
    Text.OneLine d.typeText :=
  h.oneLine_typeTexts.1

end Bindgen
