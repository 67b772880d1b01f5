import Bindgen.Word

/-! # Spelled words

What escaping, unescaping and the naming of enum cases do to a name: escaping
is done once and can be undone, and each of them takes its characters from the
name, apart from backticks and the characters of identifiers.
-/

namespace Bindgen.Word

theorem isTicked_ticks (cs : List Char) : isTicked (ticks ++ cs ++ ticks) = true := by
  have start : ticks <+: ticks ++ cs ++ ticks := List.append_assoc .. ▸ List.prefix_append ..
  have stop : ticks <:+ ticks ++ cs ++ ticks := List.suffix_append ..
  rw [isTicked, List.isPrefixOf_iff_prefix.mpr start, List.isSuffixOf_iff_suffix.mpr stop]
  rfl

theorem escape_cases (name : String) :
    escape name = name ∨ escape name = String.ofList (ticks ++ name.toList ++ ticks) := by
  unfold escape
  split
  · exact .inl rfl
  · split
    · exact .inr rfl
    · exact .inl rfl

/-- A name between backticks is left alone, so escaping twice is escaping once. -/
theorem escape_escape (name : String) : escape (escape name) = escape name := by
  rcases escape_cases name with same | ticked
  · rw [same, same]
  · have kept : isTicked (escape name).toList = true := by
      rw [ticked, String.toList_ofList]
      exact isTicked_ticks name.toList
    have again : escape (escape name) =
        if (escape name).isEmpty || isTicked (escape name).toList then escape name
        else if isReserved (escape name) || !isIdentifierPath (escape name) then
          String.ofList (ticks ++ (escape name).toList ++ ticks)
        else escape name := rfl
    rw [again, if_pos (by simp [kept])]

theorem unescape_of_not_isTicked {name : String} (h : isTicked name.toList = false) :
    unescape name = name :=
  if_neg (by simp [h])

theorem unescape_ticks {cs : List Char} (h : cs ≠ []) :
    unescape (String.ofList (ticks ++ cs ++ ticks)) = String.ofList cs := by
  have length : (ticks ++ cs ++ ticks).length = cs.length + 4 := by
    simp only [List.length_append, ticks, List.length_cons, List.length_nil]
    omega
  have some : 0 < cs.length := List.length_pos_iff.mpr h
  have between : ((ticks ++ cs ++ ticks).drop 2).take cs.length = cs := by
    simp [ticks]
  simp only [unescape, String.toList_ofList, isTicked_ticks, length, Nat.add_sub_cancel]
  rw [if_pos (by simp [some]), between]

/-- Escaping is undone, for names that do not look escaped already. -/
theorem unescape_escape {name : String} (h : isTicked name.toList = false) :
    unescape (escape name) = name := by
  unfold escape
  split
  · exact unescape_of_not_isTicked h
  · rename_i plain
    split
    · have some : name.toList ≠ [] := by
        intro empty
        exact plain (by simp [String.toList_eq_nil_iff.mp empty])
      rw [unescape_ticks some, String.ofList_toList]
    · exact unescape_of_not_isTicked h

theorem isEmpty_escape (name : String) : (escape name).isEmpty = name.isEmpty := by
  unfold escape
  split
  · rfl
  · rename_i plain
    have named : name.isEmpty = false := by
      cases empty : name.isEmpty with
      | true => exact absurd (by rw [empty]; rfl) plain
      | false => rfl
    split
    · rw [named]
      simp [ticks, String.isEmpty_eq_false_iff]
    · rfl

/-! ## Names between backticks -/

/-- Two backticks stand at either end of the name. They may overlap. -/
def Ticked (name : String) : Prop :=
  ticks <+: name.toList ∧ ticks <:+ name.toList

theorem isTicked_iff {name : String} : isTicked name.toList = true ↔ Ticked name := by
  rw [isTicked, Bool.and_eq_true, List.isPrefixOf_iff_prefix, List.isSuffixOf_iff_suffix, Ticked]

instance (name : String) : Decidable (Ticked name) :=
  decidable_of_iff _ isTicked_iff

theorem isTicked_eq_false {name : String} (h : ¬ Ticked name) : isTicked name.toList = false :=
  Bool.eq_false_iff.mpr fun ticked => h (isTicked_iff.mp ticked)

theorem escape_of_ticked {name : String} (h : Ticked name) : escape name = name :=
  if_pos (by simp [isTicked_iff.mpr h])

/-- The backticks come off exactly if there is something between them, and then the name
gets shorter. -/
theorem unescape_eq_self_iff {name : String} :
    unescape name = name ↔ ¬ (4 < name.length ∧ Ticked name) := by
  constructor
  · rintro same ⟨long, ticked⟩
    rw [← String.length_toList] at long
    have shorter : (unescape name).toList =
        (name.toList.drop 2).take (name.toList.length - 4) := by
      rw [unescape, if_pos (by simp [long, isTicked_iff.mpr ticked]), String.toList_ofList]
    have length := congrArg List.length shorter
    rw [same, List.length_take, List.length_drop] at length
    omega
  · intro short
    refine if_neg fun h => short ?_
    rw [Bool.and_eq_true, decide_eq_true_eq, String.length_toList, isTicked_iff] at h
    exact h

theorem unescape_escape_eq_iff {name : String} :
    unescape (escape name) = name ↔ ¬ (4 < name.length ∧ Ticked name) := by
  by_cases ticked : Ticked name
  · rw [escape_of_ticked ticked, unescape_eq_self_iff]
  · exact iff_of_true (unescape_escape (isTicked_eq_false ticked)) fun h => ticked h.2

theorem eq_of_escape_eq {name other : String} (h : ¬ Ticked name) (hother : ¬ Ticked other)
    (same : escape name = escape other) : name = other := by
  rw [← unescape_escape (isTicked_eq_false h), same, unescape_escape (isTicked_eq_false hother)]

/-- Two names share a spelling only if one of them is the spelling of the other. -/
theorem escape_eq_escape_iff {name other : String} :
    escape name = escape other ↔ name = other ∨ name = escape other ∨ escape name = other := by
  constructor
  · intro same
    by_cases ticked : Ticked name
    · exact .inr (.inl (escape_of_ticked ticked ▸ same))
    · by_cases hother : Ticked other
      · exact .inr (.inr (escape_of_ticked hother ▸ same))
      · exact .inl (eq_of_escape_eq ticked hother same)
  · rintro (rfl | rfl | rfl)
    · rfl
    · exact escape_escape other
    · exact (escape_escape name).symm

/-- Escaping twice is escaping once. Escaping is undone unless the name had backticks at
either end and something between them, so names without such backticks never share a
spelling. In general two names do so only if one of them is the spelling of the other. -/
theorem escape_idempotent_reversible :
    (∀ name, escape (escape name) = escape name) ∧
    (∀ name, unescape (escape name) = name ↔ ¬ (4 < name.length ∧ Ticked name)) ∧
    (∀ name other, ¬ Ticked name -> ¬ Ticked other -> name ≠ other ->
      escape name ≠ escape other) ∧
    ∀ name other, escape name = escape other ↔
      name = other ∨ name = escape other ∨ escape name = other := by
  refine ⟨escape_escape, fun _ => unescape_escape_eq_iff, ?_, fun _ _ => escape_eq_escape_iff⟩
  intro name other plain hother different same
  exact different (eq_of_escape_eq plain hother same)

/-- A keyword and a dotted path, and three names of backticks alone or around a word. -/
theorem escape_reversible_on_samples :
    (¬ Ticked "type" ∧ ¬ Ticked "Foo.type" ∧ escape "type" ≠ escape "Foo.type") ∧
    (Ticked "\x60\x60\x60" ∧ unescape (escape "\x60\x60\x60") = "\x60\x60\x60") ∧
    (Ticked "\x60\x60type\x60\x60" ∧
      unescape (escape "\x60\x60type\x60\x60") ≠ "\x60\x60type\x60\x60") := by
  obtain ⟨-, reversed, apart, -⟩ := escape_idempotent_reversible
  refine ⟨⟨by decide, by decide, apart _ _ (by decide) (by decide) (by decide)⟩, ?_, ?_⟩
  · exact ⟨by decide, (reversed _).mpr (by decide)⟩
  · exact ⟨by decide, fun same => (reversed _).mp same (by decide)⟩

/-! ## Identifiers -/

theorem fields_of_forall {isSeparator : Char -> Bool} {cs : List Char}
    (h : ∀ c ∈ cs, isSeparator c = false) : Text.fields isSeparator cs = [cs] := by
  induction cs with
  | nil => rfl
  | cons c cs ih =>
      obtain ⟨first, rest⟩ := List.forall_mem_cons.mp h
      rw [Text.fields, if_neg (by simp [first]), ih rest]

/-- One identifier: a letter or an underscore, then word characters and apostrophes. -/
def IsName (cs : List Char) : Prop :=
  ∃ c rest, cs = c :: rest ∧ isHead c = true ∧ ∀ d ∈ rest, isWordChar d = true ∨ d = '\x27'

theorem IsName.isWordChar_of_mem {cs : List Char} (h : IsName cs) {c : Char} (hc : c ∈ cs) :
    isWordChar c = true ∨ c = '\x27' := by
  obtain ⟨first, rest, rfl, head, all⟩ := h
  rcases List.mem_cons.mp hc with same | hc
  · exact .inl (by simp [isWordChar, same, head])
  · exact all c hc

theorem isTail_iff {cs : List Char} :
    isTail cs = true ↔ ∃ rest, (cs = rest ∨ cs = rest ++ ['\n']) ∧
      ∀ d ∈ rest, isWordChar d = true ∨ d = '\x27' := by
  fun_induction isTail cs with
  | case1 => exact iff_of_true rfl ⟨[], .inl rfl, nofun⟩
  | case2 => exact iff_of_true rfl ⟨[], .inr rfl, nofun⟩
  | case3 c cs more ih =>
      rw [Bool.and_eq_true, ih, Bool.or_eq_true, beq_iff_eq]
      constructor
      · rintro ⟨first, rest, ends, all⟩
        refine ⟨c :: rest, ?_, List.forall_mem_cons.mpr ⟨first, all⟩⟩
        exact ends.imp (congrArg (c :: ·)) (congrArg (c :: ·))
      · rintro ⟨rest, ends, all⟩
        cases rest with
        | nil =>
            rcases ends with ends | ends
            · cases ends
            · cases ends
              exact absurd rfl (more rfl)
        | cons d rest =>
            obtain ⟨first, all⟩ := List.forall_mem_cons.mp all
            have same : c = d := by rcases ends with ends | ends <;> exact (List.cons.inj ends).1
            refine ⟨same ▸ first, rest, ?_, all⟩
            exact ends.imp (fun h => (List.cons.inj h).2) fun h => (List.cons.inj h).2

/-- What counts as an identifier is one, or one with a line feed behind it. -/
theorem isIdentifier_iff {cs : List Char} :
    isIdentifier cs = true ↔ ∃ name, (cs = name ∨ cs = name ++ ['\n']) ∧ IsName name := by
  cases cs with
  | nil =>
      refine iff_of_false Bool.false_ne_true ?_
      rintro ⟨_, ends | ends, c, rest, rfl, -⟩ <;> cases ends
  | cons c cs =>
      rw [isIdentifier, Bool.and_eq_true, isTail_iff]
      constructor
      · rintro ⟨first, rest, ends, all⟩
        refine ⟨c :: rest, ?_, c, rest, rfl, first, all⟩
        exact ends.imp (congrArg (c :: ·)) (congrArg (c :: ·))
      · rintro ⟨_, ends, d, rest, rfl, first, all⟩
        have same : c = d := by rcases ends with ends | ends <;> exact (List.cons.inj ends).1
        refine ⟨same ▸ first, rest, ?_, all⟩
        exact ends.imp (fun h => (List.cons.inj h).2) fun h => (List.cons.inj h).2

/-! ## Characters -/

theorem mem_escape {c : Char} {name : String} (h : c ∈ (escape name).toList) :
    c ∈ name.toList ∨ c ∈ ticks := by
  rcases escape_cases name with same | ticked
  · rw [same] at h
    exact .inl h
  · rw [ticked, String.toList_ofList, List.mem_append, List.mem_append] at h
    rcases h with (h | h) | h
    · exact .inr h
    · exact .inl h
    · exact .inr h

theorem mem_unescape {c : Char} {name : String} (h : c ∈ (unescape name).toList) :
    c ∈ name.toList := by
  simp only [unescape] at h
  split at h
  · rw [String.toList_ofList] at h
    exact List.mem_of_mem_drop (List.mem_of_mem_take h)
  · exact h

theorem isLower_iff {c : Char} : c.isLower = true ↔ 'a'.val ≤ c.val ∧ c.val ≤ 'z'.val := by
  change (decide _ && decide _) = true ↔ _
  rw [Bool.and_eq_true, decide_eq_true_eq, decide_eq_true_eq]

theorem toUpper_of_not_isLower {c : Char} (h : ¬ c.isLower = true) : c.toUpper = c :=
  dif_neg fun lower => h (isLower_iff.mpr lower)

theorem isUpper_toUpper {c : Char} (h : c.isLower = true) : c.toUpper.isUpper = true := by
  have lower := isLower_iff.mp h
  have low : 97 ≤ c.val.toNat := UInt32.le_iff_toNat_le.mp lower.1
  have high : c.val.toNat ≤ 122 := UInt32.le_iff_toNat_le.mp lower.2
  have shift : ('A'.val - 'a'.val).toNat = 4294967264 := by decide
  have value : c.toUpper.val.toNat = c.val.toNat - 32 := by
    have raised : ∃ valid, c.toUpper = ⟨c.val + ('A'.val - 'a'.val), valid⟩ := ⟨_, dif_pos lower⟩
    obtain ⟨valid, raised⟩ := raised
    simp only [raised, UInt32.toNat_add]
    omega
  have upper : 65 ≤ c.toUpper.val.toNat ∧ c.toUpper.val.toNat ≤ 90 := by omega
  exact decide_eq_true ⟨UInt32.le_iff_toNat_le.mpr upper.1, UInt32.le_iff_toNat_le.mpr upper.2⟩

theorem toUpper_ne_lineFeed {c : Char} (h : isWordChar c = true) : c.toUpper ≠ '\n' := by
  intro same
  by_cases lower : c.isLower = true
  · exact absurd (isUpper_toUpper lower) (by rw [same]; decide)
  · rw [toUpper_of_not_isLower lower] at same
    exact absurd h (by rw [same]; decide)

theorem lineFeed_not_mem_capitalize {cs : List Char} (h : ∀ c ∈ cs, isWordChar c = true) :
    '\n' ∉ capitalize cs := by
  cases cs with
  | nil => exact List.not_mem_nil
  | cons c cs =>
      obtain ⟨first, rest⟩ := List.forall_mem_cons.mp h
      intro found
      rcases List.mem_cons.mp found with same | found
      · exact toUpper_ne_lineFeed first same.symm
      · exact absurd (rest _ found) (by decide)

/-- Only runs of word characters get into the identifier of an enum case. -/
theorem lineFeed_not_mem_pascalCase (cs : List Char) : '\n' ∉ pascalCase cs := by
  intro found
  obtain ⟨run, hrun, found⟩ := List.mem_flatMap.mp found
  have hrun := (List.mem_filter.mp hrun).1
  have word : ∀ c ∈ run, isWordChar c = true := by
    intro c hc
    have kept := Text.not_isSeparator_of_mem_fields hrun hc
    simpa using kept
  exact lineFeed_not_mem_capitalize word found

theorem lineFeed_not_mem_enumName (name : String) : '\n' ∉ (enumName name).toList := by
  have run := lineFeed_not_mem_pascalCase name.toList
  unfold enumName
  split
  · decide
  case h_2 c cs chars =>
      rw [chars] at run
      intro found
      rcases mem_escape found with found | found
      · rw [String.toList_ofList] at found
        split at found
        · rcases List.mem_cons.mp found with same | found
          · exact absurd same (by decide)
          · exact run found
        · exact run found
      · exact absurd found (by decide)

end Bindgen.Word
