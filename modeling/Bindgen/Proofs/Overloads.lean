import Bindgen.Proofs.InterfaceNames
import Bindgen.Proofs.Statics
import Bindgen.Proofs.Words
import Mathlib.Data.List.Forall2

/-! # Overloads on strings after all passes

What comes of the members of an interface when a file is prepared. Every pass maps the
members one by one, so each of them can be followed through all passes: its head says
what becomes of its name and of its template, and its parameters are rewritten in their
order. A function that takes a string first ends with the string in its name and a
template that restores the call in the spelling of the source, because escaping a name
can be undone.
-/

namespace Bindgen

/-! ## Members and passes -/

def Decl.rewriteBy (ws : List Rewriting) (d : Decl) : Decl :=
  ws.foldl (fun d w => d.rewrite w) d

def Param.rewriteBy (ws : List Rewriting) (p : Param) : Param :=
  ws.foldl (fun p w => p.rewrite w) p

/-- The member has the head to expect, and a function still is one, with its parameters
rewritten. -/
structure Decl.Becomes (act : Head -> Head) (ws : List Rewriting) (c d : Decl) : Prop where
  head : d.head = act c.head
  params : ∀ s, c = .function s ->
    ∃ t, d = .function t ∧ t.params = s.params.map (Param.rewriteBy ws)

/-- The pass makes an interface of an interface and maps its members one by one. -/
def MapsMembers (pass : Decl -> Decl) (R : Decl -> Decl -> Prop) : Prop :=
  ∀ i, ∃ j F, pass (.interface i) = .interface j ∧ j.members = i.members.map F ∧ ∀ c, R c (F c)

/-- The rewriting does `act` to heads, and its function leaves the parameters of functions
alone. -/
structure Rewriting.LeavesParams (w : Rewriting) (act : Head -> Head) : Prop
    extends w.ActsOn act where
  function : ∀ s, ∃ t, w.apply (.function s) = .function t ∧ t.params = s.params

structure Rewriting.LeavesMembers (w : Rewriting) (act : Head -> Head) : Prop
    extends w.LeavesParams act where
  interface : ∀ i, ∃ j, w.apply (.interface i) = .interface j ∧ j.members = i.members

section

variable {w : Rewriting} {act act' : Head -> Head} {ws vs : List Rewriting}

theorem Param.rewriteBy_append (p : Param) :
    p.rewriteBy (ws ++ vs) = (p.rewriteBy ws).rewriteBy vs :=
  List.foldl_append

theorem Param.map_rewriteBy_append (ps : List Param) :
    (ps.map (Param.rewriteBy ws)).map (Param.rewriteBy vs) =
      ps.map (Param.rewriteBy (ws ++ vs)) := by
  rw [List.map_map]
  exact List.map_congr_left fun p _ => p.rewriteBy_append.symm

theorem Decl.Becomes.refl (c : Decl) : c.Becomes id [] c where
  head := rfl
  params s hs := ⟨s, hs, (List.map_id s.params).symm⟩

theorem Decl.Becomes.trans {c d e : Decl} (first : c.Becomes act ws d)
    (second : d.Becomes act' vs e) : c.Becomes (act' ∘ act) (ws ++ vs) e where
  head := by rw [second.head, first.head, Function.comp_apply]
  params s hs := by
    obtain ⟨t, rfl, params⟩ := first.params s hs
    obtain ⟨u, rfl, again⟩ := second.params t rfl
    refine ⟨u, rfl, ?_⟩
    rw [again, params, Param.map_rewriteBy_append]

theorem MapsMembers.comp {first second : Decl -> Decl} {R S T : Decl -> Decl -> Prop}
    (hfirst : MapsMembers first R) (hsecond : MapsMembers second S)
    (step : ∀ {c d e}, R c d -> S d e -> T c e) :
    MapsMembers (fun d => second (first d)) T := by
  intro i
  obtain ⟨j, F, there, members, each⟩ := hfirst i
  obtain ⟨k, G, again, after, every⟩ := hsecond j
  refine ⟨k, G ∘ F, (congrArg second there).trans again, ?_, fun c => step (each c) (every (F c))⟩
  rw [after, members, List.map_map]

theorem MapsMembers.trans {first second : Decl -> Decl}
    (hfirst : MapsMembers first (Decl.Becomes act ws))
    (hsecond : MapsMembers second (Decl.Becomes act' vs)) :
    MapsMembers (fun d => second (first d)) (Decl.Becomes (act' ∘ act) (ws ++ vs)) :=
  hfirst.comp hsecond .trans

theorem Rewriting.LeavesParams.becomes (hw : w.LeavesParams act) (c : Decl) :
    c.Becomes act [w] (c.rewrite w) where
  head := Decl.head_rewrite hw.toActsOn c
  params := by
    rintro s rfl
    rw [Decl.rewrite_eq_apply]
    obtain ⟨t, applied, params⟩ := hw.function _
    exact ⟨t, applied, params⟩

theorem Decl.becomes_rewriteBy (hws : ∀ w ∈ ws, w.LeavesParams id) (c : Decl) :
    c.Becomes id ws (c.rewriteBy ws) := by
  induction ws generalizing c with
  | nil => exact .refl c
  | cons w ws ih =>
      obtain ⟨first, others⟩ := List.forall_mem_cons.mp hws
      exact (first.becomes c).trans (ih others (c.rewrite w))

theorem Rewriting.LeavesMembers.mapsMembers (hw : w.LeavesMembers act) :
    MapsMembers (Decl.rewrite w) (Decl.Becomes act [w]) := by
  intro i
  obtain ⟨j, applied, members⟩ := hw.interface { i with
    typeParams := i.typeParams.map (Decl.rewrite w)
    inherits := i.inherits.map (Decl.rewrite w)
    members := i.members.map (Decl.rewrite w) }
  exact ⟨j, Decl.rewrite w, (Decl.rewrite_eq_apply w _).trans applied, members, hw.becomes⟩

theorem mapsMembers_rewriteBy (hws : ∀ w ∈ ws, w.LeavesMembers id) :
    MapsMembers (Decl.rewriteBy ws) (Decl.Becomes id ws) := by
  induction ws with
  | nil => exact fun i => ⟨i, id, rfl, (List.map_id _).symm, Decl.Becomes.refl⟩
  | cons w ws ih =>
      obtain ⟨first, others⟩ := List.forall_mem_cons.mp hws
      exact first.mapsMembers.comp (ih others) .trans

end

/-! ## The passes one by one -/

namespace Rewriting

variable {w : Rewriting}

theorem KeepsHeads.leavesParams (heads : w.KeepsHeads)
    (function : ∀ s, w.apply (.function s) = .function s) : w.LeavesParams id where
  toActsOn := heads
  function s := ⟨s, function s, rfl⟩

theorem KeepsHeads.leavesMembers (heads : w.KeepsHeads)
    (function : ∀ s, w.apply (.function s) = .function s)
    (interface : ∀ i, w.apply (.interface i) = .interface i) : w.LeavesMembers id where
  toLeavesParams := heads.leavesParams function
  interface i := ⟨i, interface i, rfl⟩

theorem escapeNames_leavesMembers : escapeNames.LeavesMembers Head.escape where
  toActsOn := escapeNames_actsOn
  function _ := ⟨_, rfl, rfl⟩
  interface _ := ⟨_, rfl, rfl⟩

end Rewriting

theorem Decl.becomes_resultOf (type d : Decl) : d.Becomes id [] (Decl.resultOf type d) := by
  cases d with
  | function s =>
      simp only [Decl.resultOf]
      split
      · refine ⟨rfl, ?_⟩
        rintro s ⟨⟩
        exact ⟨_, rfl, (List.map_id s.params).symm⟩
      · exact .refl _
  | _ => exact .refl _

theorem resolveSelf_mapsMembers :
    MapsMembers (Decl.rewrite .resolveSelf) (Decl.Becomes id [.resolveSelf]) := by
  intro i
  refine ⟨_, _, Decl.rewrite_eq_apply _ _, List.map_map, fun c => ?_⟩
  have inside := Rewriting.resolveSelf_keepsHeads.leavesParams (fun _ => rfl)
  exact (inside.becomes c).trans (Decl.becomes_resultOf _ _)

def quotings (bounds : List (List String)) : List Rewriting :=
  bounds.map .quoteNames

theorem leavesMembers_of_mem_quotings (bounds : List (List String)) :
    ∀ w ∈ quotings bounds, w.LeavesMembers id :=
  List.forall_mem_map.mpr fun bound _ =>
    (Rewriting.quoteNames_keepsHeads bound).leavesMembers (fun _ => rfl) fun _ => rfl

theorem Decl.quoted_eq_rewriteBy (typeParams : List Decl) :
    ∃ bounds, Decl.quoted typeParams = Decl.rewriteBy (quotings bounds) := by
  unfold Decl.quoted
  split
  · exact ⟨[], rfl⟩
  · exact ⟨[_], rfl⟩

theorem Decl.becomes_quotedFunction (c : Decl) :
    ∃ bounds, c.Becomes id (quotings bounds) c.quotedFunction := by
  cases c with
  | function s =>
      obtain ⟨bounds, quoted⟩ := Decl.quoted_eq_rewriteBy s.typeParams
      refine ⟨bounds, ?_⟩
      rw [Decl.quotedFunction, quoted]
      exact Decl.becomes_rewriteBy
        (fun w hw => (leavesMembers_of_mem_quotings bounds w hw).toLeavesParams) _
  | _ => exact ⟨[], .refl _⟩

theorem quoteFunctions_mapsMembers :
    MapsMembers (Decl.rewrite .quoteFunctions) fun c d =>
      ∃ bounds, c.Becomes id (.quoteFunctions :: quotings bounds) d := by
  intro i
  refine ⟨_, _, Decl.rewrite_eq_apply _ _, List.map_map, fun c => ?_⟩
  obtain ⟨bounds, quoted⟩ := (c.rewrite .quoteFunctions).becomes_quotedFunction
  have inside := Rewriting.quoteFunctions_keepsHeads.leavesParams (fun _ => rfl)
  exact ⟨bounds, (inside.becomes c).trans quoted⟩

theorem quoteTypes_mapsMembers :
    MapsMembers (Decl.rewrite .quoteTypes) fun c d =>
      ∃ bounds, c.Becomes id (.quoteTypes :: quotings bounds) d := by
  intro i
  obtain ⟨bounds, quoted⟩ :=
    Decl.quoted_eq_rewriteBy (i.typeParams.map (Decl.rewrite .quoteTypes))
  obtain ⟨j, F, there, members, each⟩ :=
    mapsMembers_rewriteBy (leavesMembers_of_mem_quotings bounds) { i with
      typeParams := i.typeParams.map (Decl.rewrite .quoteTypes)
      inherits := i.inherits.map (Decl.rewrite .quoteTypes)
      members := i.members.map (Decl.rewrite .quoteTypes) }
  refine ⟨j, F ∘ Decl.rewrite .quoteTypes, ?_, by rw [members, List.map_map], fun c => ⟨bounds, ?_⟩⟩
  · rw [← there, ← quoted]
    exact Decl.rewrite_eq_apply _ _
  · have inside := Rewriting.quoteTypes_keepsHeads.leavesParams (fun _ => rfl)
    exact (inside.becomes c).trans (each _)

/-! ## Specialized functions -/

def Head.absorbed : Head -> Nat
  | .function _ none (some _) (some _ :: _) => 1
  | _ => 0

theorem Signature.params_specialize (s : Signature) :
    s.specialize.params = s.params.drop (Decl.function s).head.absorbed := by
  obtain ⟨emit, isStatic, name, typeParams, params, result⟩ := s
  cases emit with
  | some template => rfl
  | none =>
      cases name with
      | none => rfl
      | some name =>
          cases params with
          | nil => rfl
          | cons p params =>
              obtain ⟨paramName, optional, isRest, type⟩ := p
              cases type <;> rfl

/-- The member went through `ws` and was specialized on the way, when its head had
become `act` of what it was. -/
structure Decl.Specializes (act : Head -> Head) (ws : List Rewriting) (c d : Decl) : Prop where
  head : d.head = (act c.head).specialize
  params : ∀ s, c = .function s -> ∃ t, d = .function t ∧
    t.params = (s.params.drop (act c.head).absorbed).map (Param.rewriteBy ws)

section

variable {act act' : Head -> Head} {ws vs : List Rewriting} {c d e : Decl}

theorem Decl.specializes_rewrite (c : Decl) :
    c.Specializes id [.specializeOverloads] (c.rewrite .specializeOverloads) where
  head := Decl.head_rewrite Rewriting.specializeOverloads_actsOn c
  params := by
    rintro s rfl
    have head := Decl.head_rebuild Rewriting.specializeOverloads_actsOn (.function s)
    rw [Decl.rebuild] at head
    refine ⟨_, Decl.rewrite_eq_apply _ _, ?_⟩
    rw [Signature.params_specialize, ← List.map_drop, head]
    rfl

theorem Decl.Becomes.specializes (first : c.Becomes act ws d) (second : d.Specializes act' vs e) :
    c.Specializes (act' ∘ act) (ws ++ vs) e where
  head := by rw [second.head, first.head, Function.comp_apply]
  params s hs := by
    obtain ⟨t, rfl, params⟩ := first.params s hs
    obtain ⟨u, rfl, rest⟩ := second.params t rfl
    refine ⟨u, rfl, ?_⟩
    rw [rest, params, first.head, Function.comp_apply, ← List.map_drop,
      Param.map_rewriteBy_append]

theorem Decl.Specializes.becomes (first : c.Specializes act ws d) (second : d.Becomes id vs e) :
    c.Specializes act (ws ++ vs) e where
  head := by rw [second.head, first.head, id]
  params s hs := by
    obtain ⟨t, rfl, params⟩ := first.params s hs
    obtain ⟨u, rfl, again⟩ := second.params t rfl
    refine ⟨u, rfl, ?_⟩
    rw [again, params, Param.map_rewriteBy_append]

end

theorem specializeOverloads_mapsMembers :
    MapsMembers (Decl.rewrite .specializeOverloads)
      (Decl.Specializes id [.specializeOverloads]) :=
  fun _ => ⟨_, _, Decl.rewrite_eq_apply _ _, rfl, Decl.specializes_rewrite⟩

/-! ## All passes -/

def settlings (settings : Settings) : List Rewriting :=
  [.resolveSelf, .collapseArrays nodeArrayMarker, .renameDates,
    .splitStatics settings.staticSuffix]

/-- The rewritings from there to the escaping of names. -/
def escapings (settings : Settings) : List Rewriting :=
  [.addExports settings.exportsName settings.staticSuffix, .escapeNames]

/-- The rewritings after the splitting. A member is quoted by its own type parameters and
by those of its interface. -/
def spellings (settings : Settings) (own outer : List (List String)) : List Rewriting :=
  escapings settings ++ (.quoteFunctions :: quotings own) ++ (.quoteTypes :: quotings outer) ++
    [.specializeOverloads, .capUnions settings.maxUnionArity]

section

variable (settings : Settings) (path : List String)

theorem settled_mapsMembers :
    MapsMembers (Decl.settled settings path) (Decl.Becomes id (settlings settings)) := by
  have arrays := (Rewriting.collapseArrays_keepsHeads nodeArrayMarker).leavesMembers
    (fun _ => rfl) (fun _ => rfl)
  have dates := Rewriting.renameDates_keepsHeads.leavesMembers (fun _ => rfl) (fun _ => rfl)
  have statics := (Rewriting.splitStatics_keepsHeads settings.staticSuffix).leavesMembers
    (fun _ => rfl) (fun _ => rfl)
  have passes := ((resolveSelf_mapsMembers.trans arrays.mapsMembers).trans
    dates.mapsMembers).trans statics.mapsMembers
  intro i
  have imports : (if settings.convertImports then (Decl.interface i).importedAt path
      else .interface i) = .interface i := by
    split <;> rfl
  simp only [Decl.settled, imports]
  exact passes i

theorem spelled_mapsMembers :
    MapsMembers (fun d => (d.rewrite (.addExports settings.exportsName
      settings.staticSuffix)).spelled settings) fun c d =>
        ∃ own outer, c.Specializes Head.escape (spellings settings own outer) d := by
  have exports := (Rewriting.addExports_keepsHeads settings.exportsName
    settings.staticSuffix).leavesMembers (fun _ => rfl) (fun _ => rfl)
  have unions := (Rewriting.capUnions_keepsHeads settings.maxUnionArity).leavesMembers
    (fun _ => rfl) (fun _ => rfl)
  have escaped : MapsMembers _ (Decl.Becomes Head.escape (escapings settings)) :=
    exports.mapsMembers.trans Rewriting.escapeNames_leavesMembers.mapsMembers
  have functions : MapsMembers _ fun c d => ∃ own, c.Becomes Head.escape
      (escapings settings ++ (.quoteFunctions :: quotings own)) d :=
    escaped.comp quoteFunctions_mapsMembers
      fun first ⟨own, second⟩ => ⟨own, first.trans second⟩
  have types : MapsMembers _ fun c d => ∃ own outer, c.Becomes Head.escape
      (escapings settings ++ (.quoteFunctions :: quotings own) ++
        (.quoteTypes :: quotings outer)) d :=
    functions.comp quoteTypes_mapsMembers
      fun ⟨own, first⟩ ⟨outer, second⟩ => ⟨own, outer, first.trans second⟩
  have capped : MapsMembers _ (Decl.Specializes id
      [.specializeOverloads, .capUnions settings.maxUnionArity]) :=
    specializeOverloads_mapsMembers.comp unions.mapsMembers .becomes
  exact types.comp capped
    fun ⟨own, outer, first⟩ second => ⟨own, outer, first.specializes second⟩

end

/-! ## Parameters and functions -/

/-- The rewriting leaves the names and flags of parameters alone. -/
def Rewriting.Quiet (w : Rewriting) : Prop :=
  ∀ p, w.onParam p = p

theorem Param.rewriteBy_of_quiet {ws : List Rewriting} (hws : ∀ w ∈ ws, w.Quiet) (p : Param) :
    p.rewriteBy ws = { p with type := p.type.rewriteBy ws } := by
  induction ws generalizing p with
  | nil =>
      cases p
      rfl
  | cons w ws ih =>
      obtain ⟨first, others⟩ := List.forall_mem_cons.mp hws
      have step : p.rewrite w = { p with type := p.type.rewrite w } := first _
      have rest := ih others (p.rewrite w)
      rw [step] at rest
      rw [Param.rewriteBy, List.foldl_cons, step]
      exact rest

theorem Param.rewriteBy_escape {before after : List Rewriting} (hbefore : ∀ w ∈ before, w.Quiet)
    (hafter : ∀ w ∈ after, w.Quiet) (p : Param) :
    p.rewriteBy (before ++ .escapeNames :: after) =
      ⟨Word.escape p.name, p.optional, p.isRest,
        p.type.rewriteBy (before ++ .escapeNames :: after)⟩ := by
  rw [Param.rewriteBy_append, Decl.rewriteBy, List.foldl_append, Param.rewriteBy_of_quiet hbefore]
  exact Param.rewriteBy_of_quiet hafter _

def paramPasses (settings : Settings) (own outer : List (List String)) : List Rewriting :=
  settlings settings ++ spellings settings own outer

/-- One pass escapes the name, and no other pass looks at it. -/
theorem Param.rewriteBy_passes (settings : Settings) (own outer : List (List String)) (p : Param) :
    p.rewriteBy (paramPasses settings own outer) =
      ⟨Word.escape p.name, p.optional, p.isRest,
        p.type.rewriteBy (paramPasses settings own outer)⟩ := by
  have quiet : ∀ f hp hm, (Rewriting.ofTypes f hp hm).Quiet := fun _ _ _ _ => rfl
  have quotes : ∀ bounds, ∀ w ∈ quotings bounds, w.Quiet := fun bounds =>
    List.forall_mem_map.mpr fun _ _ _ => rfl
  have before : ∀ w ∈ settlings settings ++
      [.addExports settings.exportsName settings.staticSuffix], Rewriting.Quiet w := by
    simp only [settlings, List.forall_mem_append, List.forall_mem_cons]
    exact ⟨⟨quiet _ _ _, quiet _ _ _, quiet _ _ _, fun _ => rfl, nofun⟩, fun _ => rfl, nofun⟩
  have after : ∀ w ∈ (.quoteFunctions :: quotings own) ++ (.quoteTypes :: quotings outer) ++
      [.specializeOverloads, .capUnions settings.maxUnionArity], Rewriting.Quiet w := by
    simp only [List.forall_mem_append, List.forall_mem_cons]
    exact ⟨⟨⟨quiet _ _ _, quotes own⟩, quiet _ _ _, quotes outer⟩, quiet _ _ _, quiet _ _ _, nofun⟩
  have order : paramPasses settings own outer =
      (settlings settings ++ [.addExports settings.exportsName settings.staticSuffix]) ++
        .escapeNames :: ((.quoteFunctions :: quotings own) ++ (.quoteTypes :: quotings outer) ++
          [.specializeOverloads, .capUnions settings.maxUnionArity]) := by
    simp [paramPasses, spellings, escapings]
  -- Escaping stands between two runs of passes that are quiet.
  rw [order]
  exact Param.rewriteBy_escape before after p

/-- The parameter under its escaped name, with its type rewritten. -/
structure Param.PreparedAs (settings : Settings) (p q : Param) : Prop where
  name : q.name = Word.escape p.name
  optional : q.optional = p.optional
  isRest : q.isRest = p.isRest
  type : ∃ own outer, q.type = p.type.rewriteBy (paramPasses settings own outer)

/-- What all passes make of a function. One that takes a string first gets the string into
its name and a template for the call by the name it had; one that takes no string first
keeps all its parameters; and so does one that has a template, whatever it takes. -/
structure Signature.PreparedAs (settings : Settings) (s t : Signature) : Prop where
  isStatic : t.isStatic = s.isStatic
  overload : ∀ name text first rest, s.emit = none -> s.name = some name ->
    Word.isTicked name.toList = false -> s.params = first :: rest -> first.type = .literal text ->
    t.name = some (Word.escape (name ++ "_" ++ text)) ∧
      t.emit = some ("$0." ++ name ++ "(\x27" ++ text ++ "\x27,$1...)") ∧
      List.Forall₂ (Param.PreparedAs settings) rest t.params
  plain : ∀ name, s.emit = none -> s.name = some name ->
    (∀ first rest, s.params = first :: rest -> first.type.literal? = none) ->
    t.name = some (Word.escape name) ∧ t.emit = none ∧
      List.Forall₂ (Param.PreparedAs settings) s.params t.params
  template : ∀ template, s.emit = some template ->
    t.name = s.name.map Word.escape ∧ t.emit = some template ∧
      List.Forall₂ (Param.PreparedAs settings) s.params t.params

section

variable {settings : Settings} {own outer : List (List String)}

theorem Param.forall₂_preparedAs (ps : List Param) :
    List.Forall₂ (Param.PreparedAs settings) ps
      (ps.map (Param.rewriteBy (paramPasses settings own outer))) := by
  rw [List.forall₂_map_right_iff, List.forall₂_same]
  intro p _
  rw [Param.rewriteBy_passes]
  exact ⟨rfl, rfl, rfl, own, outer, rfl⟩

theorem Decl.Specializes.preparedAs {s : Signature} {d : Decl}
    (h : (Decl.function s).Specializes Head.escape (paramPasses settings own outer) d) :
    ∃ t, d = .function t ∧ s.PreparedAs settings t := by
  obtain ⟨t, rfl, params⟩ := h.params s rfl
  obtain ⟨emit, isStatic, name, typeParams, ps, result⟩ := s
  -- The head has the name and the template, and says how many parameters are gone.
  have head := h.head
  refine ⟨t, rfl, ?_, ?_, ?_, ?_⟩
  · have static := congrArg Head.isStatic head
    rw [Rewriting.specializeOverloads_actsOn.isStatic] at static
    exact static
  · rintro name text ⟨paramName, optional, isRest, type⟩ rest ⟨⟩ ⟨⟩ plain ⟨⟩ ⟨⟩
    simp only [Decl.head, Head.escape, Head.specialize, Option.map_some, List.map_cons,
      Decl.literal?, Head.function.injEq, Word.unescape_escape plain] at head
    refine ⟨head.2.2.1, head.2.1, ?_⟩
    rw [params]
    exact Param.forall₂_preparedAs rest
  · rintro name ⟨⟩ ⟨⟩ plain
    cases ps with
    | nil =>
        obtain ⟨-, emit, spelled, -⟩ := Head.function.inj head
        rw [params]
        exact ⟨spelled, emit, .nil⟩
    | cons p ps =>
        have first := plain p ps rfl
        simp only [Decl.head, Head.escape, Head.specialize, Option.map_some, List.map_cons, first,
          Head.function.injEq] at head
        simp only [Decl.head, Head.escape, Head.absorbed, List.map_cons, first] at params
        rw [params]
        exact ⟨head.2.2.1, head.2.1, Param.forall₂_preparedAs (p :: ps)⟩
  · rintro template ⟨⟩
    simp only [Decl.head, Head.escape, Head.specialize, Head.function.injEq] at head
    refine ⟨head.2.2.1, head.2.1, ?_⟩
    rw [params]
    exact Param.forall₂_preparedAs ps

end

/-! ## Members of interfaces -/

/-- A function among the members is a function that is prepared as it should be, and all
other members stay other members. -/
def Decl.MemberPreparedAs (settings : Settings) (c d : Decl) : Prop :=
  (∀ s, c = .function s -> ∃ t, d = .function t ∧ s.PreparedAs settings t) ∧
    (c.function? = none -> d.function? = none)

/-- What comes of the members of an interface that is an entry. They stay together if it
is not split, and the static ones are with the holder if it is. -/
structure Decl.MembersPreparedIn (settings : Settings) (d : Decl) (place : List Decl) : Prop where
  whole : ∀ i, d = .interface i -> i.isStatic = true ∨ i.hasStaticMembers = false ->
    ∃ j : Interface, place = [.interface j] ∧ j.isStatic = i.isStatic ∧
      j.name = Word.escape i.name ∧
      List.Forall₂ (Decl.MemberPreparedAs settings) i.members j.members
  split : ∀ i, d = .interface i -> i.isStatic = false -> i.hasStaticMembers = true ->
    ∃ rest holder : Interface, place = [.interface rest, .interface holder] ∧
      rest.name = Word.escape i.name ∧
      holder.name = Word.escape (i.name ++ settings.staticSuffix) ∧
      List.Forall₂ (Decl.MemberPreparedAs settings) (i.members.filter fun c => !c.isStatic)
        rest.members ∧
      List.Forall₂ (Decl.MemberPreparedAs settings) (i.members.filter Decl.isStatic)
        holder.members

section

variable {settings : Settings}

theorem Decl.Specializes.memberPreparedAs {own outer : List (List String)} {c d : Decl}
    (h : c.Specializes Head.escape (paramPasses settings own outer) d) :
    c.MemberPreparedAs settings d := by
  constructor
  · rintro s rfl
    exact h.preparedAs
  · intro other
    have head := h.head
    cases d with
    | function t =>
        cases c with
        | function s => cases other
        | _ => cases head
    | _ => rfl

theorem Interface.exists_settled (settings : Settings) (path : List String) (i : Interface) :
    ∃ (j : Interface) (F : Decl -> Decl), (Decl.interface i).settled settings path = .interface j ∧
      j.isStatic = i.isStatic ∧ j.hasStaticMembers = i.hasStaticMembers ∧ j.name = i.name ∧
      j.members = i.members.map F ∧ ∀ c : Decl, c.Becomes id (settlings settings) (F c) := by
  obtain ⟨j, F, settled, members, each⟩ := settled_mapsMembers settings path i
  have head := Decl.head_settled settings path (.interface i)
  have kept : (Decl.interface i).head.settled settings = (Decl.interface i).head := by
    unfold Head.settled
    split <;> rfl
  rw [settled, kept] at head
  obtain ⟨isStatic, hasStatic, name⟩ := Head.interface.inj head
  exact ⟨j, F, settled, isStatic, hasStatic, name, members, each⟩

/-- A settled interface, or a half of one, goes through the passes after the splitting. -/
theorem Interface.exists_spelled {settings : Settings} {j : Interface} {members : List Decl}
    {F : Decl -> Decl} (settled : j.members = members.map F)
    (each : ∀ c : Decl, c.Becomes id (settlings settings) (F c)) :
    ∃ k : Interface, ((Decl.interface j).rewrite (.addExports settings.exportsName
        settings.staticSuffix)).spelled settings = .interface k ∧
      k.isStatic = j.isStatic ∧ k.name = Word.escape j.name ∧
      List.Forall₂ (Decl.MemberPreparedAs settings) members k.members := by
  obtain ⟨k, G, spelled, after, every⟩ := spelled_mapsMembers settings j
  dsimp only at spelled
  have head := Decl.head_spelled settings ((Decl.interface j).rewrite
    (.addExports settings.exportsName settings.staticSuffix))
  rw [spelled, Decl.head_rewrite (Rewriting.addExports_keepsHeads _ _)] at head
  obtain ⟨isStatic, -, name⟩ := Head.interface.inj head
  refine ⟨k, spelled, isStatic, name, ?_⟩
  rw [after, settled, List.map_map, List.forall₂_map_right_iff, List.forall₂_same]
  intro c _
  obtain ⟨own, outer, specialized⟩ := every (F c)
  exact ((each c).specializes specialized).memberPreparedAs

theorem Decl.membersPreparedIn (settings : Settings) (path : List String) (d : Decl) :
    d.MembersPreparedIn settings (d.prepared settings path) where
  whole := by
    rintro i rfl whole
    obtain ⟨j, F, settled, isStatic, hasStatic, name, members, each⟩ :=
      i.exists_settled settings path
    obtain ⟨k, spelled, same, escaped, prepared⟩ := Interface.exists_spelled members each
    have unsplit : Decl.splitStatic settings.staticSuffix (.interface j) = [.interface j] := by
      apply Decl.splitStatic_of_whole
      rintro j ⟨⟩
      rwa [isStatic, hasStatic]
    refine ⟨k, ?_, same.trans isStatic, name ▸ escaped, prepared⟩
    rw [Decl.prepared, settled, unsplit, List.map_singleton, spelled]
  split := by
    rintro i rfl notStatic someStatic
    obtain ⟨j, F, settled, isStatic, hasStatic, name, members, each⟩ :=
      i.exists_settled settings path
    -- Settling keeps the flags, so it does not matter whether members are sorted before
    -- or after it.
    have flags : Decl.isStatic ∘ F = Decl.isStatic := by
      funext c
      rw [Function.comp_apply, ← Decl.isStatic_head, (each c).head, id, Decl.isStatic_head]
    have others : (fun c => !c.isStatic) ∘ F = fun c => !c.isStatic :=
      funext fun c => congrArg not (congrFun flags c)
    have instances : j.rest.members = (i.members.filter fun c => !c.isStatic).map F := by
      rw [Interface.rest, Interface.instanceMembers, members, List.filter_map, others]
    have statics : (j.holder settings.staticSuffix).members =
        (i.members.filter Decl.isStatic).map F := by
      rw [Interface.holder, Interface.staticMembers, members, List.filter_map, flags]
    obtain ⟨rest, hrest, -, restName, restMembers⟩ := Interface.exists_spelled instances each
    obtain ⟨holder, hholder, -, holderName, holderMembers⟩ :=
      Interface.exists_spelled statics each
    refine ⟨rest, holder, ?_, name ▸ restName, name ▸ holderName, restMembers, holderMembers⟩
    rw [Decl.prepared, settled, Decl.splitStatic_of_split settings.staticSuffix
      (isStatic.trans notStatic) (hasStatic.trans someStatic), List.map_cons, List.map_singleton,
      hrest, hholder]

end

/-! ## Modules by their positions -/

/-- The module that is found from another one by going into the module with the given
number among the modules in it, again and again. -/
def Module.moduleAt? : List Nat -> Module -> Option Module
  | [], m => some m
  | k :: ks, m => (modulesOf m.entries)[k]?.bind (Module.moduleAt? ks)

/-- The module at a position in a file, which starts with the number of a module of it. -/
def File.moduleAt? : List Nat -> File -> Option Module
  | [], _ => none
  | k :: ks, f => f.modules[k]?.bind (Module.moduleAt? ks)

theorem Module.moduleAt?_append (ks ls : List Nat) (m : Module) :
    m.moduleAt? (ks ++ ls) = (m.moduleAt? ks).bind (Module.moduleAt? ls) := by
  induction ks generalizing m with
  | nil => rfl
  | cons k ks ih =>
      rw [List.cons_append, Module.moduleAt?, Module.moduleAt?, Option.bind_assoc]
      exact congrArg _ (funext ih)

theorem File.Reaches.moduleAt? {f : File} {m n : Module} (reached : f.Reaches m) {ks : List Nat}
    (h : m.moduleAt? ks = some n) : f.Reaches n := by
  induction ks generalizing m with
  | nil => exact Option.some.inj h ▸ reached
  | cons k ks ih =>
      obtain ⟨inner, hinner, h⟩ := Option.bind_eq_some_iff.mp h
      exact ih (.nested reached (mem_modulesOf.mp (List.mem_of_getElem? hinner))) h

/-- The positions in a file are those of the modules that are reached in it. -/
theorem File.reaches_iff_moduleAt? {f : File} {m : Module} :
    f.Reaches m ↔ ∃ ks, f.moduleAt? ks = some m := by
  constructor
  · intro reached
    induction reached with
    | top hm =>
        obtain ⟨k, hk⟩ := List.mem_iff_getElem?.mp hm
        exact ⟨[k], by rw [File.moduleAt?, hk]; rfl⟩
    | nested _ hinner ih =>
        obtain ⟨ks, hks⟩ := ih
        obtain ⟨l, hl⟩ := List.mem_iff_getElem?.mp (mem_modulesOf.mpr hinner)
        cases ks with
        | nil => cases hks
        | cons k ks =>
            obtain ⟨top, htop, hks⟩ := Option.bind_eq_some_iff.mp hks
            refine ⟨k :: (ks ++ [l]), ?_⟩
            rw [File.moduleAt?, htop, Option.bind_some, Module.moduleAt?_append, hks,
              Option.bind_some, Module.moduleAt?, hl]
            rfl
  · rintro ⟨ks, hks⟩
    cases ks with
    | nil => cases hks
    | cons k ks =>
        obtain ⟨top, htop, hks⟩ := Option.bind_eq_some_iff.mp hks
        exact File.Reaches.moduleAt? (.top (List.mem_of_getElem? htop)) hks

section

variable (settings : Settings)

/-- Modules keep their positions. -/
theorem Module.moduleAt?_prepared {ks : List Nat} {m n : Module} (path : List String)
    (h : m.moduleAt? ks = some n) :
    ∃ around, (m.prepared settings path).moduleAt? ks = some (n.prepared settings around) := by
  induction ks generalizing m path with
  | nil => exact ⟨path, by rw [← Option.some.inj h]; rfl⟩
  | cons k ks ih =>
      obtain ⟨inner, hinner, h⟩ := Option.bind_eq_some_iff.mp h
      obtain ⟨around, found⟩ := ih (pathInside path m.name) h
      refine ⟨around, ?_⟩
      rw [Module.moduleAt?, Module.modulesOf_prepared, List.getElem?_map, hinner]
      exact found

theorem File.moduleAt?_prepared {f g : File}
    (modules : g.modules = f.modules.map (Module.prepared settings [f.name])) {ks : List Nat}
    {m : Module} (h : f.moduleAt? ks = some m) :
    ∃ around, g.moduleAt? ks = some (m.prepared settings around) := by
  cases ks with
  | nil => cases h
  | cons k ks =>
      obtain ⟨top, htop, h⟩ := Option.bind_eq_some_iff.mp h
      obtain ⟨around, found⟩ := Module.moduleAt?_prepared settings [f.name] h
      refine ⟨around, ?_⟩
      rw [File.moduleAt?, modules, List.getElem?_map, htop]
      exact found

end

/-- Preparing a file turns every overload on a string into a function of its own. Each
module keeps its position, its entries stay in order behind at most one exports interface,
and the members of an interface are found where they were, or with its static holder. A
function among them that takes a string first has the string in its name and a template for
the call by its name in the source; the others keep their parameters, and a template that
is there already stays. -/
theorem prepare_specializes_overloads (settings : Settings) (f : File) :
    ∃ g, (f.prepare settings).outcome = .ok g ∧
      (∀ m, f.Reaches m ↔ ∃ ks, f.moduleAt? ks = some m) ∧
      ∀ ks m, f.moduleAt? ks = some m ->
        ∃ (n : Module) (exports : List Interface) (places : List (List Decl)),
          g.moduleAt? ks = some n ∧
          n.entries = exports.map Decl.interface ++ places.flatten ∧ exports.length ≤ 1 ∧
          List.Forall₂ (Decl.MembersPreparedIn settings) m.entries places := by
  obtain ⟨opens, prepared⟩ := prepare_outcome settings f
  refine ⟨_, prepared, fun m => File.reaches_iff_moduleAt?, fun ks m hm => ?_⟩
  obtain ⟨path, found⟩ := File.moduleAt?_prepared settings
    (g := ⟨f.name, opens, f.modules.map (Module.prepared settings [f.name])⟩) rfl hm
  obtain ⟨exports, entries, names⟩ := m.entries_prepared settings path
  refine ⟨_, exports, m.entries.map (Decl.prepared settings (pathInside path m.name)), found,
    entries, ?_, ?_⟩
  · have counted := congrArg List.length names
    rw [List.length_map, List.length_map] at counted
    rw [counted, Module.exportNames]
    split <;> simp
  · rw [List.forall₂_map_right_iff, List.forall₂_same]
    exact fun d _ => d.membersPreparedIn settings _

def emitter : Interface :=
  ⟨false, "Emitter", [], [], [.function ⟨none, false, some "new", [],
    [⟨"event", false, false, .literal "end"⟩, ⟨"type", true, false, .named "Date"⟩], .unit⟩]⟩

def emitterFile : File :=
  ⟨"Events", [], [⟨"", [.module ⟨"Node", [.interface emitter]⟩]⟩]⟩

theorem emitterFile_specializes_overloads :
    ∃ g n j t, (emitterFile.prepare {}).outcome = .ok g ∧ g.moduleAt? [0, 0] = some n ∧
      .interface j ∈ n.entries ∧ .function t ∈ j.members ∧ t.name = some "new_end" ∧
      t.emit = some "$0.new(\x27end\x27,$1...)" ∧
      t.params.map Param.name = ["\x60\x60type\x60\x60"] := by
  obtain ⟨g, outcome, -, modules⟩ := prepare_specializes_overloads {} emitterFile
  obtain ⟨n, exports, places, found, entries, -, each⟩ :=
    modules [0, 0] ⟨"Node", [.interface emitter]⟩ rfl
  obtain ⟨place, others, inPlace, -, rfl⟩ := List.forall₂_cons_left_iff.mp each
  obtain ⟨j, rfl, -, -, members⟩ := inPlace.whole emitter rfl (.inr rfl)
  obtain ⟨member, rest, asMember, -, first⟩ := List.forall₂_cons_left_iff.mp members
  obtain ⟨t, rfl, prepared⟩ := asMember.1 _ rfl
  obtain ⟨name, emit, params⟩ := prepared.overload "new" "end" _ _ rfl rfl (by decide) rfl rfl
  obtain ⟨param, none, spelled, last, only⟩ := List.forall₂_cons_left_iff.mp params
  refine ⟨g, n, j, t, outcome, found, ?_, ?_, ?_, emit, ?_⟩
  · rw [entries]
    exact List.mem_append_right _ List.mem_cons_self
  · rw [first]
    exact List.mem_cons_self
  · rw [name]
    decide +kernel
  · rw [only, List.forall₂_nil_left_iff.mp last, List.map_singleton, spelled.name]
    decide +kernel

end Bindgen
