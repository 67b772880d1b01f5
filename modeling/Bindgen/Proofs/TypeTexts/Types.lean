import Bindgen.Proofs.TypeTexts.Phrases

/-! # The phrases of types

A type that is built from names by arrays, arguments, arrows, unions and tuples is
printed as a phrase. So two such types are printed alike exactly if their phrases are
the same, and it remains to say which types have the same phrase.
-/

namespace Bindgen

/-! ## Phrases of types -/

def mapLast {α : Type} (f : α -> α) (as : List α) : List α :=
  as.dropLast ++ (as.getLast?.map f).toList

theorem mapLast_of_ne_nil {α : Type} (f : α -> α) {as : List α} (h : as ≠ []) :
    mapLast f as = as.dropLast ++ [f (as.getLast h)] := by
  simp [mapLast, List.getLast?_eq_some_getLast h]

def Factor.mark : Factor -> Factor
  | .applied name arguments marks => .applied name arguments (marks + 1)
  | .arrow types marks => .arrow types (marks + 1)

/-- The option mark behind a phrase belongs to its last factor. -/
def Phrase.markIf (optional : Bool) (p : Phrase) : Phrase :=
  if optional then mapLast Factor.mark p else p

/-- The phrase of a union: that of its only alternative, or an erased union type. -/
def unionPhrase : List Phrase -> Phrase
  | [] => []
  | [alternative] => alternative
  | alternatives => [.applied ("U" ++ toString alternatives.length) alternatives 0]

theorem Phrase.markIf_singleton (optional : Bool) (f : Factor) :
    Phrase.markIf optional [f] = [if optional then f.mark else f] := by
  cases optional <;> rfl

theorem unionPhrase_of_two_le {alternatives : List Phrase} (h : 2 ≤ alternatives.length) :
    unionPhrase alternatives =
      [.applied ("U" ++ toString alternatives.length) alternatives 0] := by
  match alternatives with
  | [] => simp at h
  | [_] => simp at h
  | _ :: _ :: _ => rfl

mutual

/-- The phrase that is printed for a type. The elements of a tuple are put one behind
the other, whatever groups they have been in. Other declarations have no phrase. -/
def Decl.phrase : Decl -> Phrase
  | .named name => [.applied name [] 0]
  | .array element => [.applied "ResizeArray" [element.phrase] 0]
  | .union optional alternatives => (unionPhrase (Decl.phrases alternatives)).markIf optional
  | .generic (.named base) arguments => [.applied base (Decl.phrases arguments) 0]
  | .function ⟨_, _, _, _, params, result⟩ =>
    [.arrow (Param.phrases params ++ [result.phrase]) 0]
  | .tuple elements => (Decl.phrases elements).flatten
  | _ => []

def Decl.phrases : List Decl -> List Phrase
  | [] => []
  | d :: ds => d.phrase :: Decl.phrases ds

def Param.phrases : List Param -> List Phrase
  | [] => []
  | ⟨_, _, _, type⟩ :: ps => type.phrase :: Param.phrases ps

end

theorem Decl.phrases_eq_map (ds : List Decl) : Decl.phrases ds = ds.map Decl.phrase := by
  induction ds with
  | nil => rfl
  | cons d ds ih => rw [Decl.phrases, ih, List.map_cons]

theorem Param.phrases_eq_map (ps : List Param) :
    Param.phrases ps = ps.map fun p => p.type.phrase := by
  induction ps with
  | nil => rfl
  | cons p ps ih =>
      obtain ⟨_, _, _, type⟩ := p
      rw [Param.phrases, ih, List.map_cons]

inductive Decl.Phrased : Decl -> Prop
  | named {name : String} : IsTypeName name -> (Decl.named name).Phrased
  | array {element : Decl} : element.Phrased -> (Decl.array element).Phrased
  | generic {base : String} {arguments : List Decl} : IsTypeName base ->
    (∀ a ∈ arguments, a.Phrased) -> (Decl.generic (.named base) arguments).Phrased
  | function {f : Signature} : f.params ≠ [] -> (∀ p ∈ f.params, p.type.Phrased) ->
    f.result.Phrased -> (Decl.function f).Phrased
  | union {optional : Bool} {alternatives : List Decl} : alternatives ≠ [] ->
    (∀ a ∈ alternatives, a.Phrased) -> (Decl.union optional alternatives).Phrased
  | tuple {elements : List Decl} : elements ≠ [] -> (∀ e ∈ elements, e.Phrased) ->
    (Decl.tuple elements).Phrased

/-! ## Phrases of types are legal -/

theorem isDelimiter_of_isDigit {c : Char} (h : c.isDigit = true) : isDelimiter c = false := by
  rw [Bool.eq_false_iff]
  intro delimiter
  simp only [isDelimiter, Bool.or_eq_true, beq_iff_eq] at delimiter
  rcases delimiter with ((((rfl | rfl) | rfl) | rfl) | rfl) | rfl <;> exact absurd h (by decide)

theorem isTypeName_union (n : Nat) : IsTypeName ("U" ++ toString n) where
  nonempty := by simp
  plain c hc := by
    rw [String.toList_append] at hc
    rcases List.mem_append.mp hc with first | digit
    · rw [List.mem_singleton.mp first]
      rfl
    · exact isDelimiter_of_isDigit (isDigit_of_mem_toString digit)

theorem Phrase.legal_singleton {f : Factor} (h : f.Legal) : Phrase.Legal [f] :=
  ⟨List.cons_ne_nil f [], by simpa using h⟩

theorem Phrase.legal_applied {name : String} (hname : IsTypeName name) {arguments : List Phrase}
    (h : ∀ p ∈ arguments, p.Legal) (marks : Nat) :
    Phrase.Legal [.applied name arguments marks] :=
  legal_singleton (.applied marks hname (fun p hp => (h p hp).nonempty) fun p hp =>
    (h p hp).factors)

theorem Factor.Legal.mark {f : Factor} (h : f.Legal) : f.mark.Legal := by
  cases h with
  | applied marks name nonempty legal => exact .applied (marks + 1) name nonempty legal
  | arrow marks types nonempty legal => exact .arrow (marks + 1) types nonempty legal

theorem Phrase.Legal.markIf {p : Phrase} (h : p.Legal) (optional : Bool) :
    (p.markIf optional).Legal := by
  unfold Phrase.markIf
  split
  · rw [mapLast_of_ne_nil _ h.nonempty]
    refine ⟨by simp, ?_⟩
    intro f hf
    rcases List.mem_append.mp hf with before | last
    · exact h.factors f ((List.dropLast_sublist p).mem before)
    · rw [List.mem_singleton.mp last]
      exact (h.factors _ (List.getLast_mem h.nonempty)).mark
  · exact h

theorem unionPhrase_legal {ps : List Phrase} (nonempty : ps ≠ []) (h : ∀ p ∈ ps, p.Legal) :
    (unionPhrase ps).Legal := by
  unfold unionPhrase
  split
  case h_1 => exact absurd rfl nonempty
  case h_2 p => exact h p List.mem_cons_self
  case h_3 => exact Phrase.legal_applied (isTypeName_union _) h 0

theorem Decl.Phrased.legal {d : Decl} (h : d.Phrased) : d.phrase.Legal := by
  induction h with
  | named name =>
      rw [Decl.phrase]
      exact Phrase.legal_applied name (by simp) 0
  | array _ element =>
      rw [Decl.phrase]
      exact Phrase.legal_applied (by decide) (by simpa using element) 0
  | generic base _ arguments =>
      rw [Decl.phrase, Decl.phrases_eq_map]
      exact Phrase.legal_applied base (by simpa using arguments) 0
  | @function f nonempty _ _ params result =>
      obtain ⟨emit, isStatic, name, typeParams, ps, type⟩ := f
      have types : ∀ p ∈ Param.phrases ps ++ [type.phrase], Phrase.Legal p := by
        rw [Param.phrases_eq_map]
        intro p hp
        rcases List.mem_append.mp hp with param | last
        · obtain ⟨q, hq, rfl⟩ := List.mem_map.mp param
          exact params q hq
        · rw [List.mem_singleton.mp last]
          exact result
      rw [Decl.phrase]
      exact Phrase.legal_singleton (.arrow 0 (by simp) (fun p hp => (types p hp).nonempty)
        fun p hp => (types p hp).factors)
  | union nonempty _ alternatives =>
      rw [Decl.phrase, Decl.phrases_eq_map]
      exact (unionPhrase_legal (by simpa using nonempty) (by simpa using alternatives)).markIf _
  | tuple nonempty _ elements =>
      rw [Decl.phrase, Decl.phrases_eq_map]
      constructor
      · obtain ⟨first, others, rfl⟩ := List.exists_cons_of_ne_nil nonempty
        simp [(elements first List.mem_cons_self).nonempty]
      · intro f hf
        obtain ⟨p, hp, hf⟩ := List.mem_flatten.mp hf
        obtain ⟨e, he, rfl⟩ := List.mem_map.mp hp
        exact (elements e he).factors f hf

theorem Decl.Phrased.legal_phrases {ds : List Decl} (h : ∀ d ∈ ds, d.Phrased) :
    ∀ p ∈ Decl.phrases ds, p.Legal := by
  intro p hp
  rw [Decl.phrases_eq_map] at hp
  obtain ⟨d, hd, rfl⟩ := List.mem_map.mp hp
  exact (h d hd).legal

/-! ## The text of a type is that of its phrase -/

theorem marksText_succ (marks : Nat) : marksText (marks + 1) = marksText marks ++ " option" := by
  induction marks with
  | zero => rfl
  | succ marks ih =>
      calc marksText (marks + 2) = " option" ++ marksText (marks + 1) := rfl
        _ = " option" ++ (marksText marks ++ " option") := by rw [ih]
        _ = marksText (marks + 1) ++ " option" := by rw [← String.append_assoc, marksText]

theorem Factor.text_mark (f : Factor) : f.mark.text = f.text ++ " option" := by
  cases f with
  | applied name arguments marks =>
      simp only [Factor.mark, Factor.text, marksText_succ, String.append_assoc]
  | arrow types marks => simp only [Factor.mark, Factor.text, marksText_succ, String.append_assoc]

theorem Text.join_append (separator : String) {texts more : List String} (h : texts ≠ [])
    (h' : more ≠ []) :
    Text.join separator (texts ++ more) =
      Text.join separator texts ++ separator ++ Text.join separator more := by
  induction texts with
  | nil => exact absurd rfl h
  | cons first texts ih =>
      cases texts with
      | nil =>
          obtain ⟨next, more, rfl⟩ := List.exists_cons_of_ne_nil h'
          rfl
      | cons second texts =>
          have rest := ih (List.cons_ne_nil second texts)
          simp only [List.cons_append, Text.join, String.append_assoc] at rest ⊢
          rw [rest]

/-- What is put behind the last text is put behind all of them. -/
theorem Text.join_concat_append (separator : String) (texts : List String) (text more : String) :
    Text.join separator (texts ++ [text ++ more]) =
      Text.join separator (texts ++ [text]) ++ more := by
  by_cases h : texts = []
  · rw [h]
    rfl
  · rw [Text.join_append separator h (by simp), Text.join_append separator h (by simp)]
    simp only [Text.join, String.append_assoc]

theorem Phrase.text_singleton (f : Factor) : Phrase.text [f] = f.text := rfl

theorem Phrase.text_markIf {p : Phrase} (h : p ≠ []) (optional : Bool) :
    (p.markIf optional).text = p.text ++ optionMark optional := by
  cases optional with
  | false => simp [Phrase.markIf, optionMark]
  | true =>
      have last : p.text = Phrase.text (p.dropLast ++ [p.getLast h]) := by
        rw [List.dropLast_concat_getLast]
      rw [last, Phrase.markIf, if_pos rfl, mapLast_of_ne_nil _ h, Phrase.text, Phrase.text,
        List.map_append, List.map_append, List.map_singleton, List.map_singleton, Factor.text_mark,
        Text.join_concat_append]
      rfl

theorem Phrase.text_flatten {ps : List Phrase} (h : ∀ p ∈ ps, p ≠ []) :
    Phrase.text ps.flatten = Text.join " * " (ps.map Phrase.text) := by
  induction ps with
  | nil => rfl
  | cons p ps ih =>
      obtain ⟨hp, hps⟩ := List.forall_mem_cons.mp h
      cases ps with
      | nil => simp [Text.join]
      | cons q qs =>
          have rest : (q :: qs).flatten ≠ [] := by simp [hps q List.mem_cons_self]
          rw [List.flatten_cons, Phrase.text, List.map_append,
            Text.join_append _ (by simpa using hp) (by simpa using rest)]
          have inside := ih hps
          rw [Phrase.text] at inside
          rw [inside]
          rfl

theorem Phrase.text_applied (name : String) (arguments : List Phrase) :
    Phrase.text [.applied name arguments 0] =
      name ++ argumentsText (arguments.map Phrase.text) := by
  rw [Phrase.text_singleton, Factor.text, Phrase.texts_eq_map, marksText, String.append_empty]

theorem Phrase.text_arrow (types : List Phrase) :
    Phrase.text [.arrow types 0] = "(" ++ Text.join " -> " (types.map Phrase.text) ++ ")" := by
  rw [Phrase.text_singleton, Factor.text, Phrase.texts_eq_map, marksText, String.append_empty]

theorem text_unionPhrase {ps : List Phrase} (h : ps ≠ []) :
    (unionPhrase ps).text = unionText (ps.map Phrase.text) := by
  match ps with
  | [] => exact absurd rfl h
  | [_] => rfl
  | p :: q :: ps =>
      have several : 2 ≤ (p :: q :: ps).length := by simp
      rw [unionPhrase_of_two_le several, Phrase.text_applied]
      simp [unionText, argumentsText, String.append_assoc]

theorem map_text_phrase {α : Type} {type : α -> Decl} {as : List α}
    (h : ∀ a ∈ as, (type a).phrase.text = (type a).typeText) :
    (as.map fun a => (type a).phrase).map Phrase.text = as.map fun a => (type a).typeText := by
  rw [List.map_map]
  exact List.map_congr_left h

/-- A type is printed as its phrase. -/
theorem Decl.Phrased.text_phrase {d : Decl} (h : d.Phrased) : d.phrase.text = d.typeText := by
  induction h with
  | named name =>
      rw [Decl.phrase, Decl.typeText, Phrase.text_applied, List.map_nil, argumentsText,
        String.append_empty]
  | @array element _ ih =>
      have opening : "ResizeArray<" = "ResizeArray" ++ "<" := rfl
      have bracket : argumentsText [element.typeText] = "<" ++ element.typeText ++ ">" := rfl
      rw [Decl.phrase, Decl.typeText, Phrase.text_applied, List.map_singleton, ih, bracket, opening]
      simp only [String.append_assoc]
  | generic base _ arguments =>
      rw [Decl.phrase, Decl.typeText, Decl.typeText, Phrase.text_applied, Decl.phrases_eq_map,
        Decl.typeTexts_eq_map, map_text_phrase arguments]
  | @function f nonempty _ _ params result =>
      obtain ⟨emit, isStatic, name, typeParams, ps, type⟩ := f
      have domain : (ps.map fun p => p.type.typeText).isEmpty = false := by simpa using nonempty
      rw [Decl.phrase, Decl.typeText, Phrase.text_arrow, Param.phrases_eq_map,
        Param.typeTexts_eq_map, List.map_append, map_text_phrase params, List.map_singleton, result,
        arrowText, domain]
      rfl
  | @union optional ds nonempty phrased alternatives =>
      have phrases : Decl.phrases ds ≠ [] := by simpa [Decl.phrases_eq_map] using nonempty
      have legal := unionPhrase_legal phrases (Decl.Phrased.legal_phrases phrased)
      rw [Decl.phrase, Decl.typeText, Phrase.text_markIf legal.nonempty, text_unionPhrase phrases,
        Decl.phrases_eq_map, Decl.typeTexts_eq_map, map_text_phrase alternatives]
  | tuple nonempty phrased elements =>
      rw [Decl.phrase, Decl.typeText,
        Phrase.text_flatten fun p hp => (Decl.Phrased.legal_phrases phrased p hp).nonempty,
        Decl.phrases_eq_map, Decl.typeTexts_eq_map, map_text_phrase elements]

/-- Types are printed alike exactly if their phrases are the same. -/
theorem Decl.Phrased.typeText_eq_iff {s t : Decl} (hs : s.Phrased) (ht : t.Phrased) :
    s.typeText = t.typeText ↔ s.phrase = t.phrase := by
  rw [← hs.text_phrase, ← ht.text_phrase]
  exact ⟨hs.legal.eq_of_text_eq ht.legal, fun same => by rw [same]⟩

end Bindgen
