import Bindgen.Proofs.Calm
import Bindgen.Proofs.Outline

/-! # The normal form of a prepared file

Each part of the normal form is established by one pass and kept by those behind
it: results are spelled out, arrays of nodes collapsed, static members apart,
exports first, and unions capped.
-/

namespace Bindgen

/-! ## Entries of modules -/

namespace Head

def isPlain : Head -> Bool
  | .function isStatic _ _ _ => !isStatic
  | _ => true

/-- No interface that has both static members and others of its own. -/
def isApart : Head -> Bool
  | .interface isStatic hasStatic _ => isStatic || !hasStatic
  | _ => true

theorem isPlain_split {suffix : String} {h piece : Head} (plain : h.isPlain = true)
    (hp : piece ∈ h.split suffix) : piece.isPlain = true := by
  unfold split at hp
  split at hp
  · simp only [List.mem_cons, List.not_mem_nil, or_false] at hp
    rcases hp with rfl | rfl <;> rfl
  · rw [List.mem_singleton.mp hp]
    exact plain

theorem isApart_split {suffix : String} {h piece : Head} (hp : piece ∈ h.split suffix) :
    piece.isApart = true := by
  unfold split at hp
  split at hp
  case h_1 =>
      simp only [List.mem_cons, List.not_mem_nil, or_false] at hp
      rcases hp with rfl | rfl <;> rfl
  case h_2 whole =>
      rw [List.mem_singleton.mp hp]
      cases h with
      | interface isStatic hasStatic name =>
          cases isStatic <;> cases hasStatic <;> first | rfl | exact absurd rfl (whole name)
      | _ => rfl

theorem isPlain_toImport (h : Head) : h.toImport.isPlain = h.isPlain := by
  unfold toImport
  split <;> rfl

end Head

/-- All entries of a module, if this is one, have heads with the property. -/
def Decl.HeadsAre (test : Head -> Bool) (d : Decl) : Prop :=
  ∀ m, d = .module m -> ∀ e ∈ m.entries, test e.head = true

theorem Decl.headsAre_of_not_module {test : Head -> Bool} {d : Decl} (h : d.module? = none) :
    d.HeadsAre test := by
  rintro m rfl
  cases h

theorem Decl.unmarked_of_not_generic {d : Decl} (h : d.generic? = none) : d.Unmarked := by
  rintro argument rfl
  cases h

section

variable {w : Rewriting} {test : Head -> Bool}

theorem Decl.HeadsAre.rebuild {act : Head -> Head} (hw : w.ActsOn act)
    (keep : ∀ h, test h = true -> test (act h) = true) {d : Decl} (h : d.HeadsAre test) :
    (d.rebuild w).HeadsAre test := by
  intro m hm e he
  cases d with
  | module n =>
      cases hm
      obtain ⟨before, hbefore, rfl⟩ := List.mem_map.mp he
      rw [Decl.head_rewrite hw]
      exact keep _ (h n rfl before hbefore)
  | _ => cases hm

theorem Decl.HeadsAre.apply (hw : w.KeepsEntries) {d : Decl} (h : d.HeadsAre test) :
    (w.apply d).HeadsAre test := by
  intro m hm
  obtain ⟨n, hn, same⟩ := hw d m hm
  rw [← same]
  exact h n hn

end

/-! ## Up to the exports -/

theorem Module.plain_settledImports (settings : Settings) (path : List String) {m : Module}
    (h : (Decl.module m).Every (Decl.HeadsAre Head.isPlain)) :
    (Decl.module (m.settledImports settings path)).Every (Decl.HeadsAre Head.isPlain) := by
  refine h.settledImports (fun _ => Decl.headsAre_of_not_module rfl) ?_ settings path
  rintro path m plain _ ⟨⟩ e he
  obtain ⟨before, hbefore, rfl⟩ := List.mem_map.mp he
  rw [Decl.head_importedAt, Head.isPlain_toImport]
  exact plain m rfl before hbefore

/-- A declaration after the passes over types. -/
structure Decl.Settled (d : Decl) : Prop where
  plain : d.HeadsAre Head.isPlain
  resolved : d.isResolved = true
  unmarked : d.Unmarked

/-- A settled declaration after the static members got interfaces of their own. -/
structure Decl.Parted (d : Decl) : Prop extends d.Settled where
  apart : d.HeadsAre Head.isApart

theorem Decl.returnsSelf_resultOf {type : Decl} (h : type.isSelf = false) (d : Decl) :
    (Decl.resultOf type d).returnsSelf = false := by
  cases d with
  | function s =>
      simp only [Decl.resultOf]
      split
      case h_1 => exact h
      case h_2 other =>
          cases result : s.result <;> simp_all [Decl.returnsSelf, Decl.isSelf]
  | _ => rfl

/-- Interfaces are resolved where their results are spelled out, and modules
keep their entries. -/
theorem Decl.Every.resolved_resolveSelf {d : Decl} (h : d.Every (Decl.HeadsAre Head.isPlain)) :
    (d.rewrite .resolveSelf).Every fun e => e.HeadsAre Head.isPlain ∧ e.isResolved = true := by
  refine h.rewrite ?_
  intro d plain inside
  have rebuilt : (d.rebuild .resolveSelf).HeadsAre Head.isPlain :=
    plain.rebuild Rewriting.resolveSelf_keepsHeads fun _ => id
  cases d with
  | interface i =>
      let j : Interface := { i with
        typeParams := i.typeParams.map (Decl.rewrite .resolveSelf)
        inherits := i.inherits.map (Decl.rewrite .resolveSelf)
        members := i.members.map (Decl.rewrite .resolveSelf) }
      have spelled : ∀ m, (Decl.resultOf j.selfType m).returnsSelf = false :=
        Decl.returnsSelf_resultOf rfl
      have selfType : j.selfType.Every fun e => e.HeadsAre Head.isPlain ∧ e.isResolved = true := by
        refine Decl.every_iff.mpr ⟨⟨Decl.headsAre_of_not_module rfl, rfl⟩, ?_⟩
        intro c hc
        rcases List.mem_cons.mp hc with rfl | hc
        · exact Decl.every_named ⟨Decl.headsAre_of_not_module rfl, rfl⟩
        · exact inside c (List.mem_append_left _ (List.mem_append_left _ hc))
      refine Decl.every_iff.mpr ⟨⟨Decl.headsAre_of_not_module rfl, ?_⟩, ?_⟩
      · exact Bool.not_eq_true' _ ▸ List.any_eq_false.mpr (List.forall_mem_map.mpr fun m _ => by
          rw [spelled]
          exact Bool.false_ne_true)
      · intro c hc
        rcases List.mem_append.mp hc with hc | hc
        · exact inside c (List.mem_append_left _ hc)
        · obtain ⟨m, hm, rfl⟩ := List.mem_map.mp hc
          exact (inside m (List.mem_append_right _ hm)).resultOf
            (fun _ _ => ⟨Decl.headsAre_of_not_module rfl, rfl⟩) selfType
  | _ => exact Decl.every_iff.mpr ⟨⟨rebuilt, rfl⟩, inside⟩

theorem Decl.Every.settled_collapseArrays {d : Decl}
    (h : d.Every fun e => e.HeadsAre Head.isPlain ∧ e.isResolved = true) :
    (d.rewrite (.collapseArrays nodeArrayMarker)).Every Decl.Settled := by
  refine h.rewrite_of_shrinks (Rewriting.collapseArrays_shrinks _) ?_
  rintro d ⟨plain, resolved⟩
  constructor
  · exact (plain.rebuild (Rewriting.collapseArrays_keepsHeads _) fun _ => id).apply
      (Rewriting.collapseArrays_keepsEntries _)
  · have calm := Rewriting.collapseArrays_calm nodeArrayMarker
    rw [calm.isResolved, Decl.isResolved_rebuild calm, resolved]
  · intro argument marked
    have whole := (Rewriting.collapseArrays_calm nodeArrayMarker).generic _ _ _ marked
    rw [whole] at marked
    simp [Rewriting.collapseArrays, Rewriting.ofTypes, Decl.collapseArray] at marked

theorem Rewriting.renameDates_keeps_settled : Rewriting.renameDates.Keeps Decl.Settled := by
  refine renameDates_shrinks.keeps ?_ ?_
  · rintro d ⟨plain, resolved, unmarked⟩
    exact ⟨plain.rebuild renameDates_keepsHeads fun _ => id,
      by rw [Decl.isResolved_rebuild renameDates_calm, resolved], unmarked.rebuild renameDates_calm⟩
  · rintro d ⟨plain, resolved, unmarked⟩
    exact ⟨plain.apply renameDates_keepsEntries, by rw [renameDates_calm.isResolved, resolved],
      unmarked.apply renameDates_calm⟩

theorem Decl.head_mem_split {suffix : String} {d e : Decl} (he : e ∈ Decl.splitStatic suffix d) :
    e.head ∈ d.head.split suffix := by
  rw [← Decl.map_head_splitStatic]
  exact List.mem_map_of_mem he

theorem Decl.Every.parted_splitStatics (suffix : String) {d : Decl} (h : d.Every Decl.Settled) :
    (d.rewrite (.splitStatics suffix)).Every Decl.Parted := by
  refine h.rewrite ?_
  intro d settled inside
  have rebuilt : (d.rebuild (.splitStatics suffix)).Settled :=
    ⟨settled.plain.rebuild (Rewriting.splitStatics_keepsHeads suffix) fun _ => id,
      by rw [Decl.isResolved_rebuild (Rewriting.splitStatics_calm suffix), settled.resolved],
      settled.unmarked.rebuild (Rewriting.splitStatics_calm suffix)⟩
  cases d with
  | module m =>
      refine Decl.every_iff.mpr ⟨⟨⟨?_, rfl, Decl.unmarked_of_not_generic rfl⟩, ?_⟩, ?_⟩
      · rintro _ ⟨⟩ e he
        obtain ⟨d, hd, he⟩ := List.mem_flatMap.mp he
        exact Head.isPlain_split (rebuilt.plain _ rfl d hd) (Decl.head_mem_split he)
      · rintro _ ⟨⟩ e he
        obtain ⟨d, -, he⟩ := List.mem_flatMap.mp he
        exact Head.isApart_split (Decl.head_mem_split he)
      · intro e he
        obtain ⟨d, hd, he⟩ := List.mem_flatMap.mp he
        refine (inside d hd).splitStatic ?_ he
        intro i j hj parted
        refine ⟨⟨Decl.headsAre_of_not_module rfl, ?_, Decl.unmarked_of_not_generic rfl⟩,
          Decl.headsAre_of_not_module rfl⟩
        have resolved := parted.resolved
        simp only [Decl.isResolved, Bool.not_eq_true', List.any_eq_false] at resolved ⊢
        exact fun c hc => resolved c (hj.members c hc)
  | _ => exact Decl.every_iff.mpr ⟨⟨rebuilt, Decl.headsAre_of_not_module rfl⟩, inside⟩

/-! ## From the exports on -/

def Module.hasValues (m : Module) : Bool :=
  m.entries.any fun e => e.head.isExported

def Module.ownEntries (m : Module) : List Decl :=
  if m.hasValues then m.entries.tail else m.entries

/-- The children of a declaration, without the exports interface of a module. -/
def Decl.ownChildren : Decl -> List Decl
  | .module m => m.ownEntries
  | d => d.children

theorem Decl.mem_children_of_mem_ownChildren {c d : Decl} (h : c ∈ d.ownChildren) :
    c ∈ d.children := by
  cases d with
  | module m =>
      simp only [Decl.ownChildren, Module.ownEntries] at h
      split at h
      · exact List.mem_of_mem_tail h
      · exact h
  | _ => exact h

/-- A declaration after the exports were added, under the name `exports`. -/
structure Decl.Normal (exports : String) (d : Decl) : Prop where
  unmarked : d.Unmarked
  apart : d.HeadsAre Head.isApart
  exportsFirst : ∀ m, d = .module m -> m.hasValues = true ->
    ∃ hasStatic, (m.entries.map Decl.head).head? = some (.interface false hasStatic exports)
  resolved : ∀ c ∈ d.ownChildren, c.isResolved = true

theorem Decl.Normal.of_not_module {exports : String} {d : Decl} (h : d.module? = none)
    (unmarked : d.Unmarked) (resolved : ∀ c ∈ d.children, c.isResolved = true) :
    d.Normal exports where
  unmarked := unmarked
  apart := Decl.headsAre_of_not_module h
  exportsFirst := by
    rintro m rfl
    cases h
  resolved c hc := resolved c (Decl.mem_children_of_mem_ownChildren hc)

theorem Module.withExports_entries (name suffix : String) (m : Module) :
    withExports name suffix m.entries =
      (if m.hasValues then
        [.interface (exportsInterface name (m.entries.filterMap (Decl.exported? suffix)))]
      else []) ++ m.entries :=
  withExports_eq name suffix m.entries

theorem Module.hasValues_withExports (name suffix : String) (m : Module) :
    Module.hasValues { m with entries := withExports name suffix m.entries } = m.hasValues := by
  have own : (m.entries.any fun e => e.head.isExported) = m.hasValues := rfl
  rw [Module.hasValues, Module.withExports_entries, List.any_append, own]
  cases m.hasValues with
  | true => exact Bool.or_true _
  | false => rfl

theorem Module.ownEntries_withExports (name suffix : String) (m : Module) :
    Module.ownEntries { m with entries := withExports name suffix m.entries } = m.entries := by
  rw [Module.ownEntries, Module.hasValues_withExports]
  simp only [Module.withExports_entries]
  by_cases values : m.hasValues = true <;> simp [values]

theorem Module.mem_withExports {name suffix : String} {m : Module} {e : Decl}
    (h : e ∈ withExports name suffix m.entries) :
    e = .interface (exportsInterface name (m.entries.filterMap (Decl.exported? suffix))) ∨
      e ∈ m.entries := by
  rw [Module.withExports_entries, List.mem_append] at h
  rcases h with h | h
  · split at h
    · exact .inl (List.mem_singleton.mp h)
    · cases h
  · exact .inr h

/-- The members of the exports interface are values and accessors. -/
theorem Decl.isStatic_exported {suffix : String} {d member : Decl} (plain : d.head.isPlain = true)
    (h : d.exported? suffix = some member) :
    member.isStatic = false ∧ member.isResolved = true := by
  cases d with
  | var v =>
      cases h
      exact ⟨rfl, rfl⟩
  | function s =>
      cases h
      simp only [Decl.head, Head.isPlain, Bool.not_eq_true'] at plain
      exact ⟨plain, rfl⟩
  | interface i =>
      simp only [Decl.exported?] at h
      split at h <;> cases h
      exact ⟨rfl, rfl⟩
  | _ => cases h

theorem Decl.Every.normal_exported {exports suffix : String} {d member : Decl}
    (inside : d.Every (Decl.Normal exports)) (h : d.exported? suffix = some member) :
    member.Every (Decl.Normal exports) := by
  cases d with
  | var v =>
      cases h
      exact inside
  | function s =>
      cases h
      exact inside
  | interface i =>
      simp only [Decl.exported?] at h
      split at h <;> cases h
      refine Decl.every_iff.mpr ⟨.of_not_module rfl (Decl.unmarked_of_not_generic rfl) ?_, ?_⟩
      · intro c hc
        rw [List.mem_singleton.mp hc]
        rfl
      · intro c hc
        rw [List.mem_singleton.mp hc]
        exact Decl.every_named
          (.of_not_module rfl (Decl.unmarked_of_not_generic rfl) (List.forall_mem_nil _))
  | _ => cases h

/-- The exports interface goes before entries that are normal already. -/
theorem Module.normal_withExports {name suffix : String} {m : Module}
    (plain : (Decl.module m).HeadsAre Head.isPlain) (apart : (Decl.module m).HeadsAre Head.isApart)
    (resolved : ∀ e ∈ m.entries, e.isResolved = true)
    (inside : ∀ e ∈ m.entries, e.Every (Decl.Normal name)) :
    (Decl.module { m with entries := withExports name suffix m.entries }).Every
      (Decl.Normal name) := by
  let exports := exportsInterface name (m.entries.filterMap (Decl.exported? suffix))
  have member : ∀ c ∈ exports.members,
      (c.isStatic = false ∧ c.isResolved = true) ∧ c.Every (Decl.Normal name) := by
    intro c hc
    obtain ⟨entry, hentry, exported⟩ := List.mem_filterMap.mp hc
    exact ⟨Decl.isStatic_exported (plain m rfl entry hentry) exported,
      (inside entry hentry).normal_exported exported⟩
  have head : (Decl.interface exports).head = .interface false false name := by
    have noStatic : exports.hasStaticMembers = false :=
      List.any_eq_false.mpr fun c hc => by simp [(member c hc).1]
    rw [Decl.head, noStatic]
    rfl
  refine Decl.every_iff.mpr
    ⟨⟨Decl.unmarked_of_not_generic rfl, ?apart, ?exportsFirst, ?resolved⟩, ?children⟩
  case apart =>
      rintro _ ⟨⟩ e he
      rcases Module.mem_withExports he with rfl | he
      · rw [head]
        rfl
      · exact apart m rfl e he
  case exportsFirst =>
      rintro _ ⟨⟩ values
      rw [Module.hasValues_withExports] at values
      refine ⟨false, ?_⟩
      simp only [Module.withExports_entries, values, if_true, List.singleton_append, List.map_cons,
        List.head?_cons]
      rw [← head]
  case resolved =>
      intro c hc
      rw [Decl.ownChildren, Module.ownEntries_withExports] at hc
      exact resolved c hc
  case children =>
      intro e he
      rcases Module.mem_withExports he with rfl | he
      · refine Decl.every_iff.mpr ⟨.of_not_module rfl (Decl.unmarked_of_not_generic rfl) ?_, ?_⟩
        · exact fun c hc => (member c hc).1.2
        · exact fun c hc => (member c hc).2
      · exact inside e he

theorem Decl.Every.normal_addExports (name suffix : String) {d : Decl} (h : d.Every Decl.Parted) :
    (d.rewrite (.addExports name suffix)).Every (Decl.Normal name) := by
  refine h.with_children.rewrite ?_
  rintro d ⟨parted, children⟩ inside
  have unmarked : (d.rebuild (.addExports name suffix)).Unmarked :=
    parted.unmarked.rebuild (Rewriting.addExports_calm name suffix)
  have resolved : ∀ c ∈ (d.rebuild (.addExports name suffix)).children, c.isResolved = true := by
    rw [Decl.children_rebuild]
    refine List.forall_mem_map.mpr fun c hc => ?_
    rw [Decl.isResolved_rewrite (Rewriting.addExports_calm name suffix)]
    exact (children c hc).resolved
  cases d with
  | module m =>
      have heads := Rewriting.addExports_keepsHeads name suffix
      exact Module.normal_withExports (parted.plain.rebuild heads fun _ => id)
        (parted.apart.rebuild heads fun _ => id) resolved inside
  | _ => exact Decl.every_iff.mpr ⟨.of_not_module rfl unmarked resolved, inside⟩

/-! ## The passes behind the exports -/

section

variable {w : Rewriting} {act : Head -> Head}

/-- The rewriting changes nothing that tells whether an entry is exported. -/
structure Rewriting.Faithful (w : Rewriting) (act : Head -> Head) : Prop extends
    w.ActsOn act, w.Calm where
  isExported : ∀ h, (act h).isExported = h.isExported
  isApart : ∀ h, (act h).isApart = h.isApart
  entries : w.KeepsEntries

theorem Module.hasValues_map (hw : w.Faithful act) (m : Module) :
    Module.hasValues { m with entries := m.entries.map (Decl.rewrite w) } = m.hasValues := by
  rw [Module.hasValues, List.any_map, Module.hasValues]
  congr 1
  funext e
  rw [Function.comp, Decl.head_rewrite hw.toActsOn, hw.isExported]

theorem Decl.ownChildren_rebuild (hw : w.Faithful act) (d : Decl) :
    (d.rebuild w).ownChildren = d.ownChildren.map (Decl.rewrite w) := by
  have children := d.children_rebuild (w := w)
  cases d with
  | module m =>
      rw [Decl.rebuild, Decl.ownChildren, Module.ownEntries, Module.hasValues_map hw,
        Decl.ownChildren, Module.ownEntries]
      split
      · rw [List.map_tail]
      · rfl
  | _ => exact children

theorem Decl.Normal.rebuild (hw : w.Faithful act) {name spelling : String}
    (exports : ∀ hasStatic,
      act (.interface false hasStatic name) = .interface false hasStatic spelling)
    {d : Decl} (h : d.Normal name) : (d.rebuild w).Normal spelling where
  unmarked := h.unmarked.rebuild hw.toCalm
  apart := h.apart.rebuild hw.toActsOn fun head => by rw [hw.isApart]; exact id
  exportsFirst := by
    intro m hm values
    cases d with
    | module n =>
        cases hm
        rw [Module.hasValues_map hw] at values
        obtain ⟨hasStatic, first⟩ := h.exportsFirst n rfl values
        refine ⟨hasStatic, ?_⟩
        have heads : (n.entries.map (Decl.rewrite w)).map Decl.head =
            (n.entries.map Decl.head).map act := by
          simp only [List.map_map, Function.comp_def, Decl.head_rewrite hw.toActsOn]
        simp only [heads, List.head?_map, first, Option.map_some, exports]
    | _ => cases hm
  resolved := by
    rw [Decl.ownChildren_rebuild hw]
    refine List.forall_mem_map.mpr fun c hc => ?_
    rw [Decl.isResolved_rewrite hw.toCalm]
    exact h.resolved c hc

theorem Decl.mem_ownChildren_of_apply (entries : w.KeepsEntries) (shrinks : w.Shrinks)
    {c d : Decl} (h : c ∈ (w.apply d).ownChildren) : c ∈ d.ownChildren := by
  cases d with
  | module m =>
      rw [w.apply_module] at h
      obtain ⟨n, ⟨⟩, same⟩ := entries _ _ (w.apply_module m)
      simp only [Decl.ownChildren, Module.ownEntries, Module.hasValues, ← same] at h ⊢
      exact h
  | _ => exact shrinks _ c (Decl.mem_children_of_mem_ownChildren h)

theorem Decl.Normal.apply (hw : w.Faithful act) (shrinks : w.Shrinks) {name : String} {d : Decl}
    (h : d.Normal name) : (w.apply d).Normal name where
  unmarked := h.unmarked.apply hw.toCalm
  apart := h.apart.apply hw.entries
  exportsFirst := by
    intro m hm values
    obtain ⟨n, hn, same⟩ := hw.entries d m hm
    rw [Module.hasValues, ← same] at values
    rw [← same]
    exact h.exportsFirst n hn values
  resolved c hc := h.resolved c (Decl.mem_ownChildren_of_apply hw.entries shrinks hc)

/-- Where heads stay, a rewriting that shrinks keeps the normal form. -/
theorem Rewriting.Faithful.keeps_normal (hw : w.Faithful act) (shrinks : w.Shrinks)
    {name : String} (exports : ∀ hasStatic,
      act (.interface false hasStatic name) = .interface false hasStatic name) :
    w.Keeps (Decl.Normal name) :=
  shrinks.keeps (fun _ h => h.rebuild hw exports) fun _ h => h.apply hw shrinks

end

namespace Rewriting

theorem escapeNames_faithful : escapeNames.Faithful Head.escape where
  toActsOn := escapeNames_actsOn
  toCalm := escapeNames_calm
  isExported h := by cases h <;> rfl
  isApart h := by cases h <;> rfl
  entries d m hm := by
    cases d with
    | module n =>
        cases hm
        exact ⟨n, rfl, rfl⟩
    | _ => cases hm

theorem quoteNames_faithful (bound : List String) : (quoteNames bound).Faithful id where
  toActsOn := quoteNames_keepsHeads bound
  toCalm := quoteNames_calm bound
  isExported _ := rfl
  isApart _ := rfl
  entries d m hm := by cases d <;> first | exact ⟨m, hm, rfl⟩ | cases hm

theorem quoteNames_keeps_normal (name : String) (bound : List String) :
    (quoteNames bound).Keeps (Decl.Normal name) :=
  (quoteNames_faithful bound).keeps_normal (quoteNames_shrinks bound) fun _ => rfl

theorem specializeOverloads_faithful : specializeOverloads.Faithful Head.specialize where
  toActsOn := specializeOverloads_actsOn
  toCalm := specializeOverloads_calm
  isExported h := by
    unfold Head.specialize
    split <;> rfl
  isApart h := by
    unfold Head.specialize
    split <;> rfl
  entries d m hm := by cases d <;> first | exact ⟨m, hm, rfl⟩ | cases hm

theorem capUnions_faithful (limit : Int) : (capUnions limit).Faithful id where
  toActsOn := capUnions_keepsHeads limit
  toCalm := capUnions_calm limit
  isExported _ := rfl
  isApart _ := rfl
  entries d m hm := by
    cases d with
    | union optional alternatives =>
        rcases Decl.cappedUnion_cases limit optional alternatives with obj | ⟨-, capped⟩
        · exact absurd (obj.symm.trans hm) (by simp [Decl.obj])
        · exact absurd (capped.symm.trans hm) (by simp)
    | _ => exact ⟨m, hm, rfl⟩

theorem quoteFunctions_faithful : quoteFunctions.Faithful id where
  toActsOn := quoteFunctions_keepsHeads
  toCalm := quoteFunctions_calm
  isExported _ := rfl
  isApart _ := rfl
  entries d m hm := by cases d <;> first | exact ⟨m, hm, rfl⟩ | cases hm

theorem quoteTypes_faithful : quoteTypes.Faithful id where
  toActsOn := quoteTypes_keepsHeads
  toCalm := quoteTypes_calm
  isExported _ := rfl
  isApart _ := rfl
  entries d m hm := by
    have head := congrArg Decl.head hm
    cases d with
    | interface i => cases (Decl.head_quoted _ _).symm.trans head
    | typeAlias a => cases (Decl.head_quoted _ _).symm.trans head
    | _ => exact ⟨m, hm, rfl⟩

theorem quoteFunctions_keeps_normal (name : String) : quoteFunctions.Keeps (Decl.Normal name) where
  rebuild _ h := h.rebuild quoteFunctions_faithful fun _ => rfl
  apply d h := by
    cases d with
    | interface i =>
        have member : ∀ m ∈ i.members, m.quotedFunction.Every (Decl.Normal name) := fun m hm =>
          (h.child (List.mem_append_right _ hm)).quotedFunction (quoteNames_keeps_normal name)
        refine Decl.every_iff.mpr ⟨.of_not_module rfl (Decl.unmarked_of_not_generic rfl) ?_, ?_⟩
        · intro c hc
          rcases List.mem_append.mp hc with hc | hc
          · exact h.self.resolved c (List.mem_append_left _ hc)
          · obtain ⟨m, hm, rfl⟩ := List.mem_map.mp hc
            have same : m.quotedFunction.isResolved = m.isResolved :=
              congrArg (·.2.2) m.selfUse_quotedFunction
            rw [same]
            exact h.self.resolved m (List.mem_append_right _ hm)
        · intro c hc
          rcases List.mem_append.mp hc with hc | hc
          · exact h.child (List.mem_append_left _ hc)
          · obtain ⟨m, hm, rfl⟩ := List.mem_map.mp hc
            exact member m hm
    | _ => exact h

theorem quoteTypes_keeps_normal (name : String) : quoteTypes.Keeps (Decl.Normal name) where
  rebuild _ h := h.rebuild quoteTypes_faithful fun _ => rfl
  apply d h := by
    cases d with
    | interface i => exact h.quoted (quoteNames_keeps_normal name) i.typeParams
    | typeAlias a => exact h.quoted (quoteNames_keeps_normal name) a.typeParams
    | _ => exact h

end Rewriting

/-! ## Prepared files -/

def Decl.CappedAt (limit : Int) (d : Decl) : Prop :=
  ∀ optional alternatives, d = .union optional alternatives ->
    alternatives.Nodup ∧ (alternatives.length : Int) ≤ limit

theorem Decl.every_cappedAt (limit : Int) (d : Decl) :
    (d.rewrite (.capUnions limit)).Every (Decl.CappedAt limit) := by
  have anything : d.Every fun _ => True := fun _ _ => trivial
  refine anything.rewrite_of_shrinks (Rewriting.capUnions_shrinks limit) ?_
  intro d _
  cases d with
  | union optional alternatives =>
      simp only [Rewriting.capUnions, Rewriting.ofTypes, Decl.rebuild]
      rcases Decl.cappedUnion_cases limit optional
        (alternatives.map (Decl.rewrite (.capUnions limit))) with obj | ⟨fits, capped⟩
      · intro _ _ union
        cases obj.symm.trans union
      · intro _ _ union
        cases capped.symm.trans union
        exact ⟨Decl.nodup_dedupe _, fits⟩
  | _ => rintro _ _ ⟨⟩

theorem Module.cappedAt_prepared (settings : Settings) (path : List String) (m : Module) :
    (Decl.module (m.prepared settings path)).Every (Decl.CappedAt settings.maxUnionArity) := by
  rw [Module.prepared, Module.finished, ← Decl.rewrite_module]
  exact Decl.every_cappedAt _ _

theorem Module.normal_prepared (settings : Settings) (path : List String) {m : Module}
    (plain : (Decl.module m).Every (Decl.HeadsAre Head.isPlain)) :
    (Decl.module (m.prepared settings path)).Every
      (Decl.Normal (Word.escape settings.exportsName)) := by
  have imports := Module.plain_settledImports settings path plain
  have types := imports.resolved_resolveSelf.settled_collapseArrays.rewrite_of_keeps
    Rewriting.renameDates_keeps_settled
  have exports := (types.parted_splitStatics settings.staticSuffix).normal_addExports
    settings.exportsName settings.staticSuffix
  have escaped := exports.rewrite_of_shrinks Rewriting.escapeNames_shrinks fun d normal =>
    (normal.rebuild Rewriting.escapeNames_faithful fun _ => rfl).apply
      Rewriting.escapeNames_faithful Rewriting.escapeNames_shrinks
  have quoted := (escaped.rewrite_of_keeps
    (Rewriting.quoteFunctions_keeps_normal _)).rewrite_of_keeps
    (Rewriting.quoteTypes_keeps_normal _)
  have specialized := quoted.rewrite_of_keeps (Rewriting.specializeOverloads_faithful.keeps_normal
    Rewriting.specializeOverloads_shrinks fun _ => rfl)
  have capped := specialized.rewrite_of_keeps
    ((Rewriting.capUnions_faithful settings.maxUnionArity).keeps_normal
      (Rewriting.capUnions_shrinks _) fun _ => rfl)
  simp only [Decl.rewrite_module] at capped
  exact capped

/-- A file without static functions in its modules is prepared, and what comes
out has capped unions, no marked arrays, static members apart and, behind the
exports interface of a module, no member that returns the object itself. -/
theorem prepare_normal_form (settings : Settings) (f : File)
    (plain : ∀ m, .module m ∈ f.parts -> ∀ s, .function s ∈ m.entries -> s.isStatic = false) :
    ∃ g, (f.prepare settings).outcome = .ok g ∧
      (∀ optional alternatives, .union optional alternatives ∈ g.parts ->
        alternatives.Nodup ∧ (alternatives.length : Int) ≤ settings.maxUnionArity) ∧
      (∀ argument, .generic (.named "NodeArray") [argument] ∉ g.parts) ∧
      (∀ m, .module m ∈ g.parts -> ∀ i, .interface i ∈ m.entries ->
        i.isStatic = true ∨ i.hasStaticMembers = false) ∧
      (∀ m, .module m ∈ g.parts -> m.hasValues = true ->
        ∃ i rest, m.entries = .interface i :: rest ∧ i.isStatic = false ∧
          i.name = Word.escape settings.exportsName) ∧
      ∀ d ∈ g.parts, ∀ i, .interface i ∈ d.ownChildren ->
        ∀ s, .function s ∈ i.members -> s.result ≠ .self := by
  obtain ⟨opens, prepared⟩ := prepare_outcome settings f
  have heads : ∀ d ∈ f.parts, d.HeadsAre Head.isPlain := by
    rintro _ hm m rfl e he
    cases e with
    | function s => simp [Decl.head, Head.isPlain, plain m hm s he]
    | _ => rfl
  refine ⟨_, prepared, ?_⟩
  generalize houtput :
    (⟨f.name, opens, f.modules.map (Module.prepared settings [f.name])⟩ : File) = g
  have capped : ∀ d ∈ g.parts, d.CappedAt settings.maxUnionArity := by
    subst houtput
    exact File.forall_mem_parts.mpr (List.forall_mem_map.mpr fun m _ =>
      m.cappedAt_prepared settings [f.name])
  have normal : ∀ d ∈ g.parts, d.Normal (Word.escape settings.exportsName) := by
    subst houtput
    exact File.forall_mem_parts.mpr (List.forall_mem_map.mpr fun m hm =>
      Module.normal_prepared settings [f.name] (File.forall_mem_parts.mp heads m hm))
  refine ⟨?unions, ?arrays, ?statics, ?exports, ?results⟩
  case unions => exact fun optional alternatives h => capped _ h optional alternatives rfl
  case arrays => exact fun argument h => (normal _ h).unmarked argument rfl
  case statics =>
      intro m hm i hi
      have apart := (normal _ hm).apart m rfl _ hi
      simpa [Decl.head, Head.isApart] using apart
  case exports =>
      intro m hm values
      obtain ⟨hasStatic, first⟩ := (normal _ hm).exportsFirst m rfl values
      rw [List.head?_map, Option.map_eq_some_iff] at first
      obtain ⟨e, he, head⟩ := first
      obtain ⟨rest, entries⟩ := List.head?_eq_some_iff.mp he
      cases e with
      | interface i =>
          simp only [Decl.head, Head.interface.injEq] at head
          exact ⟨i, rest, entries, head.1, head.2.2⟩
      | _ => cases head
  case results =>
      intro d hd i hi s hs self
      have resolved := (normal d hd).resolved _ hi
      simp only [Decl.isResolved, Bool.not_eq_true', List.any_eq_false] at resolved
      exact resolved _ hs (by rw [Decl.returnsSelf, self]; rfl)

/-- A file with something for each of the passes: a member and a function that
return the object itself, a static member, an array of nodes, and a union whose
alternatives become equal when dates are renamed. -/
def treeFile : File where
  name := "tree"
  opens := []
  modules := [⟨"", [
    .module ⟨"ts", [
      .interface ⟨false, "Node", [.named "T"], [], [
        .function ⟨none, true, some "create", [], [], .self⟩,
        .function ⟨none, false, some "clone", [], [], .self⟩,
        .property ⟨none, false, none, "children", true,
          .generic (.named "NodeArray") [.generic (.named "Node") [.named "T"]]⟩,
        .property ⟨none, false, none, "changed", false,
          .union false [.named "Date", .named "DateTime", .named "string"]⟩]⟩,
      .function ⟨none, false, some "parse", [], [⟨"kind", false, false, .literal "file"⟩],
        .self⟩]⟩]⟩]

theorem treeFile_normal_form :
    (∀ m, .module m ∈ treeFile.parts -> ∀ s, .function s ∈ m.entries -> s.isStatic = false) ∧
    ∃ g, (treeFile.prepare {}).outcome = .ok g ∧
      (∀ optional alternatives, .union optional alternatives ∈ g.parts ->
        alternatives.Nodup ∧ (alternatives.length : Int) ≤ Settings.maxUnionArity {}) ∧
      (∀ argument, .generic (.named "NodeArray") [argument] ∉ g.parts) ∧
      (∀ m, .module m ∈ g.parts -> ∀ i, .interface i ∈ m.entries ->
        i.isStatic = true ∨ i.hasStaticMembers = false) ∧
      (∀ m, .module m ∈ g.parts -> m.hasValues = true ->
        ∃ i rest, m.entries = .interface i :: rest ∧ i.isStatic = false ∧
          i.name = Word.escape (Settings.exportsName {})) ∧
      ∀ d ∈ g.parts, ∀ i, .interface i ∈ d.ownChildren ->
        ∀ s, .function s ∈ i.members -> s.result ≠ .self := by
  have each : ∀ d ∈ treeFile.parts, ∀ m, d = .module m ->
      ∀ s, .function s ∈ m.entries -> s.isStatic = false := by
    simp [treeFile, File.parts, Decl.parts_eq, Decl.children]
  have plain := fun m hm => each (.module m) hm m rfl
  exact ⟨plain, prepare_normal_form {} treeFile plain⟩

end Bindgen
