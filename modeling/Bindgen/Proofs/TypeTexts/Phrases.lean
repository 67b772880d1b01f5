import Bindgen.Print.Type

/-! # The grammar of type texts

The text of a type is a phrase: factors with stars between them. A factor is a name
with its arguments, or an arrow in parentheses, and any number of option marks
behind it. The main statement is that the text of a phrase can be read in one way
only. What is said of a phrase inside another one is that its text, in front of
anything that may stand behind a phrase, tells the phrase and where it ends.
-/

namespace Bindgen

/-! ## Texts that can be told apart -/

/-- The text of `x` tells `x` and where it ends, as long as what stands behind it is
allowed there. -/
def Legible {α : Type} (text : α -> String) (legal : α -> Prop) (follows : List Char -> Prop)
    (x : α) : Prop :=
  ∀ y r r', legal y -> follows r -> follows r' ->
    (text x).toList ++ r = (text y).toList ++ r' -> x = y ∧ r = r'

def separated (separator : String) (texts : List String) : List Char :=
  texts.flatMap fun text => separator.toList ++ text.toList

theorem separated_cons (separator text : String) (texts : List String) :
    separated separator (text :: texts) =
      separator.toList ++ (text.toList ++ separated separator texts) := by
  rw [separated, List.flatMap_cons, List.append_assoc, separated]

theorem Text.toList_join_cons (separator text : String) (texts : List String) :
    (Text.join separator (text :: texts)).toList =
      text.toList ++ separated separator texts := by
  induction texts generalizing text with
  | nil => simp [Text.join, separated]
  | cons next texts ih =>
      rw [Text.join, String.toList_append, String.toList_append, ih, separated_cons,
        List.append_assoc]

section

variable {α : Type} {text : α -> String} {legal : α -> Prop} {follows : List Char -> Prop}
  {separator : String} {xs ys : List α} {r r' : List Char}

theorem follows_separated (hsep : ∀ r, follows (separator.toList ++ r)) (texts : List String)
    (hr : follows r) : follows (separated separator texts ++ r) := by
  cases texts with
  | nil => exact hr
  | cons text texts =>
      rw [separated_cons, List.append_assoc]
      exact hsep _

/-- The rest of a list behind its first text. The induction hypothesis applies because
a separator may follow each of the texts. -/
theorem Legible.separated (hsep : ∀ r, follows (separator.toList ++ r))
    (hxs : ∀ x ∈ xs, Legible text legal follows x) (hys : ∀ y ∈ ys, legal y) (hr : follows r)
    (hr' : follows r') (stop : ¬ separator.toList <+: r) (stop' : ¬ separator.toList <+: r')
    (same : Bindgen.separated separator (xs.map text) ++ r =
      Bindgen.separated separator (ys.map text) ++ r') :
    xs = ys ∧ r = r' := by
  induction xs generalizing ys with
  | nil =>
      cases ys with
      | nil => exact ⟨rfl, same⟩
      | cons y ys =>
          refine absurd ?_ stop
          rw [show r = _ from same, List.map_cons, separated_cons, List.append_assoc]
          exact List.prefix_append ..
  | cons x xs ih =>
      cases ys with
      | nil =>
          refine absurd ?_ stop'
          rw [← show _ = r' from same, List.map_cons, separated_cons, List.append_assoc]
          exact List.prefix_append ..
      | cons y ys =>
          obtain ⟨hx, hxs⟩ := List.forall_mem_cons.mp hxs
          obtain ⟨hy, others⟩ := List.forall_mem_cons.mp hys
          simp only [List.map_cons, separated_cons, List.append_assoc, List.append_cancel_left_eq]
            at same
          obtain ⟨rfl, behind⟩ := hx y _ _ hy (follows_separated hsep _ hr)
            (follows_separated hsep _ hr') same
          obtain ⟨rfl, rest⟩ := ih hxs others behind
          exact ⟨rfl, rest⟩

/-- Texts with separators between them tell how many there are and which, if the
text behind them does not go on with a separator. -/
theorem Legible.join (hsep : ∀ r, follows (separator.toList ++ r))
    (hxs : ∀ x ∈ xs, Legible text legal follows x) (hys : ∀ y ∈ ys, legal y) (xs_ne : xs ≠ [])
    (ys_ne : ys ≠ []) (hr : follows r) (hr' : follows r') (stop : ¬ separator.toList <+: r)
    (stop' : ¬ separator.toList <+: r')
    (same : (Text.join separator (xs.map text)).toList ++ r =
      (Text.join separator (ys.map text)).toList ++ r') :
    xs = ys ∧ r = r' := by
  obtain ⟨x, xs, rfl⟩ := List.exists_cons_of_ne_nil xs_ne
  obtain ⟨y, ys, rfl⟩ := List.exists_cons_of_ne_nil ys_ne
  refine Legible.separated hsep hxs hys hr hr' stop stop' ?_
  simp only [List.map_cons, separated_cons, List.append_assoc]
  rw [List.map_cons, List.map_cons, Text.toList_join_cons, Text.toList_join_cons] at same
  simpa only [List.append_assoc, List.append_cancel_left_eq] using same

end

/-! ## Phrases -/

/-- A part of a type text between two stars, with the number of option marks behind
it. -/
inductive Factor where
  | applied (name : String) (arguments : List (List Factor)) (marks : Nat)
  | arrow (types : List (List Factor)) (marks : Nat)

/-- A type text: factors with stars between them. -/
abbrev Phrase := List Factor

def marksText : Nat -> String
  | 0 => ""
  | marks + 1 => " option" ++ marksText marks

mutual

def Factor.text : Factor -> String
  | .applied name arguments marks =>
    name ++ argumentsText (Phrase.texts arguments) ++ marksText marks
  | .arrow types marks => "(" ++ Text.join " -> " (Phrase.texts types) ++ ")" ++ marksText marks

def Factor.texts : List Factor -> List String
  | [] => []
  | f :: fs => f.text :: Factor.texts fs

def Phrase.texts : List Phrase -> List String
  | [] => []
  | p :: ps => Text.join " * " (Factor.texts p) :: Phrase.texts ps

end

def Phrase.text (p : Phrase) : String :=
  Text.join " * " (p.map Factor.text)

theorem Factor.texts_eq_map (fs : List Factor) : Factor.texts fs = fs.map Factor.text := by
  induction fs with
  | nil => rfl
  | cons f fs ih => rw [Factor.texts, ih, List.map_cons]

theorem Phrase.texts_eq_map (ps : List Phrase) : Phrase.texts ps = ps.map Phrase.text := by
  induction ps with
  | nil => rfl
  | cons p ps ih => rw [Phrase.texts, ih, List.map_cons, Phrase.text, Factor.texts_eq_map]

/-- A character that cannot be in a name, because type texts are built with it. -/
def isDelimiter (c : Char) : Bool :=
  c == ' ' || c == ',' || c == '<' || c == '>' || c == '(' || c == ')'

/-- A name that cannot be taken for more than a name. Letters, digits, dots, quotes and
underscores are among the characters that it may have. -/
structure IsTypeName (name : String) : Prop where
  nonempty : name ≠ ""
  plain : ∀ c ∈ name.toList, isDelimiter c = false

instance (name : String) : Decidable (IsTypeName name) :=
  decidable_of_iff (name ≠ "" ∧ (name.toList.all fun c => !isDelimiter c) = true)
    ⟨fun h => ⟨h.1, by simpa using h.2⟩, fun h => ⟨h.nonempty, by simpa using h.plain⟩⟩

/-- Names are names, and neither phrases nor arrows are empty. -/
inductive Factor.Legal : Factor -> Prop
  | applied {name : String} {arguments : List Phrase} (marks : Nat) :
    IsTypeName name -> (∀ p ∈ arguments, p ≠ []) -> (∀ p ∈ arguments, ∀ f ∈ p, f.Legal) ->
      (Factor.applied name arguments marks).Legal
  | arrow {types : List Phrase} (marks : Nat) :
    types ≠ [] -> (∀ p ∈ types, p ≠ []) -> (∀ p ∈ types, ∀ f ∈ p, f.Legal) ->
      (Factor.arrow types marks).Legal

structure Phrase.Legal (p : Phrase) : Prop where
  nonempty : p ≠ []
  factors : ∀ f ∈ p, f.Legal

/-! ## What stands behind a phrase -/

/-- Nothing, a comma, a bracket that is closed, or an arrow. -/
inductive EndsPhrase : List Char -> Prop
  | nothing : EndsPhrase []
  | comma (r : List Char) : EndsPhrase (',' :: r)
  | angle (r : List Char) : EndsPhrase ('>' :: r)
  | paren (r : List Char) : EndsPhrase (')' :: r)
  | arrow (r : List Char) : EndsPhrase (' ' :: '-' :: r)

/-- Behind a factor there may be a star too. -/
inductive EndsFactor : List Char -> Prop
  | phrase {r : List Char} : EndsPhrase r -> EndsFactor r
  | star (r : List Char) : EndsFactor (' ' :: '*' :: r)

theorem EndsPhrase.not_star {r : List Char} (h : EndsPhrase r) : ¬ " * ".toList <+: r := by
  cases h <;> simp

theorem EndsFactor.not_option {r : List Char} (h : EndsFactor r) : ¬ " option".toList <+: r := by
  cases h with
  | star r => simp
  | phrase h => cases h <;> simp

/-- The first character, if there is one, ends a name, and it does not begin the
arguments of a name. -/
def EndsName (r : List Char) : Prop :=
  ∀ c ∈ r.head?, isDelimiter c = true ∧ c ≠ '<'

theorem EndsFactor.endsName {r : List Char} (h : EndsFactor r) (marks : Nat) :
    EndsName ((marksText marks).toList ++ r) := by
  cases marks with
  | zero =>
      cases h with
      | star r => simp [marksText, EndsName, isDelimiter]
      | phrase h => cases h <;> simp [marksText, EndsName, isDelimiter]
  | succ marks => simp [marksText, EndsName, isDelimiter]

/-! ## Reading from the left -/

/-- A name ends where the first delimiter stands. -/
theorem append_name_inj {name name' r r' : List Char} (h : ∀ c ∈ name, isDelimiter c = false)
    (h' : ∀ c ∈ name', isDelimiter c = false) (hr : ∀ c ∈ r.head?, isDelimiter c = true)
    (hr' : ∀ c ∈ r'.head?, isDelimiter c = true) (same : name ++ r = name' ++ r') :
    name = name' ∧ r = r' := by
  have read : ∀ {name r : List Char}, (∀ c ∈ name, isDelimiter c = false) ->
      (∀ c ∈ r.head?, isDelimiter c = true) ->
        (name ++ r).takeWhile (fun c => !isDelimiter c) = name := by
    intro name r h hr
    rw [List.takeWhile_append_of_pos (by simpa using h)]
    cases r with
    | nil => simp
    | cons c r => simp [hr c rfl]
  have names : name = name' := by rw [← read h hr, same, read h' hr']
  subst names
  exact ⟨rfl, List.append_cancel_left same⟩

theorem toList_marksText_succ (marks : Nat) (r : List Char) :
    (marksText (marks + 1)).toList ++ r = " option".toList ++ ((marksText marks).toList ++ r) := by
  rw [marksText, String.toList_append, List.append_assoc]

theorem append_marks_inj {marks marks' : Nat} {r r' : List Char} (hr : EndsFactor r)
    (hr' : EndsFactor r')
    (same : (marksText marks).toList ++ r = (marksText marks').toList ++ r') :
    marks = marks' ∧ r = r' := by
  induction marks generalizing marks' with
  | zero =>
      cases marks' with
      | zero => exact ⟨rfl, same⟩
      | succ marks' =>
          refine absurd ?_ hr.not_option
          rw [show r = _ from same, toList_marksText_succ]
          exact List.prefix_append ..
  | succ marks ih =>
      cases marks' with
      | zero =>
          refine absurd ?_ hr'.not_option
          rw [← show _ = r' from same, toList_marksText_succ]
          exact List.prefix_append ..
      | succ marks' =>
          rw [toList_marksText_succ, toList_marksText_succ] at same
          obtain ⟨rfl, rest⟩ := ih (List.append_cancel_left same)
          exact ⟨rfl, rest⟩

/-- A phrase ends where no star follows a factor. -/
theorem Phrase.legible {p : Phrase} (hp : p ≠ [])
    (h : ∀ f ∈ p, Legible Factor.text Factor.Legal EndsFactor f) :
    Legible Phrase.text Phrase.Legal EndsPhrase p := by
  intro q r r' hq hr hr' same
  exact Legible.join (fun r => .star (' ' :: r)) h hq.factors hp hq.nonempty (.phrase hr)
    (.phrase hr') hr.not_star hr'.not_star same

theorem toList_argumentsText {texts : List String} (h : texts ≠ []) (r : List Char) :
    (argumentsText texts).toList ++ r =
      '<' :: ((Text.join ", " texts).toList ++ '>' :: r) := by
  obtain ⟨text, texts, rfl⟩ := List.exists_cons_of_ne_nil h
  simp [argumentsText]

theorem EndsName.ne_arguments {r : List Char} (h : EndsName r) {texts : List String}
    (nonempty : texts ≠ []) (r' : List Char) : r ≠ (argumentsText texts).toList ++ r' := by
  rintro rfl
  rw [toList_argumentsText nonempty] at h
  exact (h '<' rfl).2 rfl

section

variable {ps qs : List Phrase} {r r' : List Char}
  (hps : ∀ p ∈ ps, Legible Phrase.text Phrase.Legal EndsPhrase p) (hqs : ∀ q ∈ qs, q.Legal)

include hps hqs

/-- Types with arrows between them end where the parenthesis is closed. -/
theorem append_arrow_inj (ps_ne : ps ≠ []) (qs_ne : qs ≠ [])
    (same : (Text.join " -> " (Phrase.texts ps)).toList ++ ')' :: r =
      (Text.join " -> " (Phrase.texts qs)).toList ++ ')' :: r') :
    ps = qs ∧ r = r' := by
  rw [Phrase.texts_eq_map, Phrase.texts_eq_map] at same
  obtain ⟨types, rest⟩ := Legible.join (fun r => .arrow _) hps hqs ps_ne qs_ne (.paren r)
    (.paren r') (by simp) (by simp) same
  exact ⟨types, List.tail_eq_of_cons_eq rest⟩

/-- Arguments end where the bracket is closed. What follows cannot be taken for
arguments. -/
theorem append_arguments_inj (hr : EndsName r) (hr' : EndsName r')
    (same : (argumentsText (Phrase.texts ps)).toList ++ r =
      (argumentsText (Phrase.texts qs)).toList ++ r') :
    ps = qs ∧ r = r' := by
  rw [Phrase.texts_eq_map, Phrase.texts_eq_map] at same
  by_cases ps_ne : ps = []
  · by_cases qs_ne : qs = []
    · subst ps_ne qs_ne
      exact ⟨rfl, same⟩
    · subst ps_ne
      exact absurd same (hr.ne_arguments (by simpa using qs_ne) r')
  · by_cases qs_ne : qs = []
    · subst qs_ne
      exact absurd same.symm (hr'.ne_arguments (by simpa using ps_ne) r)
    · rw [toList_argumentsText (by simpa using ps_ne), toList_argumentsText (by simpa using qs_ne)]
        at same
      obtain ⟨arguments, rest⟩ := Legible.join (fun r => .comma (' ' :: r)) hps hqs ps_ne qs_ne
        (.angle r) (.angle r') (by simp) (by simp) (List.tail_eq_of_cons_eq same)
      exact ⟨arguments, List.tail_eq_of_cons_eq rest⟩

end

/-! ## Phrases can be read in one way only -/

theorem EndsName.arguments {r : List Char} (h : EndsName r) (texts : List String) :
    ∀ c ∈ ((argumentsText texts).toList ++ r).head?, isDelimiter c = true := by
  by_cases nonempty : texts = []
  · subst nonempty
    exact fun c hc => (h c hc).1
  · rw [toList_argumentsText nonempty]
    rintro c ⟨⟩
    rfl

theorem Factor.toList_applied (name : String) (arguments : List Phrase) (marks : Nat)
    (r : List Char) : (Factor.applied name arguments marks).text.toList ++ r =
      name.toList ++ ((argumentsText (Phrase.texts arguments)).toList ++
        ((marksText marks).toList ++ r)) := by
  simp only [Factor.text, String.toList_append, List.append_assoc]

theorem Factor.toList_arrow (types : List Phrase) (marks : Nat) (r : List Char) :
    (Factor.arrow types marks).text.toList ++ r =
      '(' :: ((Text.join " -> " (Phrase.texts types)).toList ++
        ')' :: ((marksText marks).toList ++ r)) := by
  simp [Factor.text]

/-- A factor is either a name or an arrow: a name does not begin with a parenthesis. -/
theorem IsTypeName.append_ne_paren {name : String} (h : IsTypeName name) (r r' : List Char) :
    name.toList ++ r ≠ '(' :: r' := by
  have nonempty : name.toList ≠ [] := by simpa using h.nonempty
  obtain ⟨c, cs, chars⟩ := List.exists_cons_of_ne_nil nonempty
  rw [chars]
  rintro ⟨⟩
  exact absurd (h.plain '(' (by simp [chars])) (by decide)

/-- The text of a factor is read from the left: a name up to the first delimiter, the
arguments up to the bracket that closes them, and the option marks. -/
theorem Factor.Legal.legible {f : Factor} (h : f.Legal) :
    Legible Factor.text Factor.Legal EndsFactor f := by
  -- The induction is on the factor that is read; the other one is any legal factor.
  induction h with
  | @applied name arguments marks hname nonempty legal ih =>
      have inside : ∀ p ∈ arguments, Legible Phrase.text Phrase.Legal EndsPhrase p :=
        fun p hp => Phrase.legible (nonempty p hp) (ih p hp)
      intro g r r' hg hr hr' same
      cases hg with
      | @applied name' arguments' marks' hname' nonempty' legal' =>
          rw [Factor.toList_applied, Factor.toList_applied] at same
          obtain ⟨names, behindName⟩ := append_name_inj hname.plain hname'.plain
            ((hr.endsName marks).arguments _) ((hr'.endsName marks').arguments _) same
          obtain ⟨rfl, behind⟩ := append_arguments_inj inside
            (fun q hq => ⟨nonempty' q hq, legal' q hq⟩) (hr.endsName marks) (hr'.endsName marks')
            behindName
          obtain ⟨rfl, rest⟩ := append_marks_inj hr hr' behind
          rw [String.toList_inj.mp names]
          exact ⟨rfl, rest⟩
      | arrow marks' =>
          rw [Factor.toList_applied, Factor.toList_arrow] at same
          exact absurd same (hname.append_ne_paren _ _)
  | @arrow types marks types_ne nonempty legal ih =>
      have inside : ∀ p ∈ types, Legible Phrase.text Phrase.Legal EndsPhrase p :=
        fun p hp => Phrase.legible (nonempty p hp) (ih p hp)
      intro g r r' hg hr hr' same
      cases hg with
      | applied marks' hname' =>
          rw [Factor.toList_applied, Factor.toList_arrow] at same
          exact absurd same.symm (hname'.append_ne_paren _ _)
      | @arrow types' marks' types_ne' nonempty' legal' =>
          rw [Factor.toList_arrow, Factor.toList_arrow] at same
          obtain ⟨rfl, behind⟩ := append_arrow_inj inside
            (fun q hq => ⟨nonempty' q hq, legal' q hq⟩) types_ne types_ne'
            (List.tail_eq_of_cons_eq same)
          obtain ⟨rfl, rest⟩ := append_marks_inj hr hr' behind
          exact ⟨rfl, rest⟩

/-- Legal phrases with the same text are the same. -/
theorem Phrase.Legal.eq_of_text_eq {p q : Phrase} (hp : p.Legal) (hq : q.Legal)
    (same : p.text = q.text) : p = q :=
  (Phrase.legible hp.nonempty (fun f hf => (hp.factors f hf).legible) q [] [] hq .nothing .nothing
    (by rw [same])).1

end Bindgen
