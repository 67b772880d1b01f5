import Bindgen.Proofs.Passes

/-! # Heads of declarations

The head of a declaration is what the passes look at when they decide about it
as an entry of a module: its kind and its name, whether it or a member of it is
static, and the strings that its parameters take. Every pass acts on heads by a
function on heads, and most of them leave heads alone.
-/

namespace Bindgen

inductive Head where
  | interface (isStatic hasStatic : Bool) (name : String)
  | enum (value : Enum)
  | typeAlias (name : String)
  | var (declared : Bool) (name : String)
  /-- `strings` has the string that a parameter takes, for every parameter. -/
  | function (isStatic : Bool) (emit name : Option String) (strings : List (Option String))
  | imported (binding : String)
  | module (name : String)
  | property (isStatic : Bool)
  | literal (text : String)
  | todo
  | absent
  | other

def Decl.head : Decl -> Head
  | .interface i => .interface i.isStatic i.hasStaticMembers i.name
  | .enum e => .enum e
  | .typeAlias a => .typeAlias a.name
  | .var v => .var v.declared v.name
  | .function s => .function s.isStatic s.emit s.name (s.params.map fun p => p.type.literal?)
  | .imported i => .imported i.binding
  | .module m => .module m.name
  | .property p => .property p.isStatic
  | .literal text => .literal text
  | .todo => .todo
  | .absent => .absent
  | _ => .other

namespace Head

def isStatic : Head -> Bool
  | .interface isStatic _ _ => isStatic
  | .function isStatic _ _ _ => isStatic
  | .property isStatic => isStatic
  | _ => false

def literal? : Head -> Option String
  | .literal text => some text
  | _ => none

/-- A declared variable as an import. -/
def toImport : Head -> Head
  | .var true name => .imported name
  | h => h

def split (suffix : String) : Head -> List Head
  | .interface false true name =>
    [.interface false false name, .interface true true (name ++ suffix)]
  | h => [h]

/-- The head of something that has a place among the exports. -/
def isExported : Head -> Bool
  | .var _ _ => true
  | .function .. => true
  | .interface isStatic _ _ => isStatic
  | _ => false

def escape : Head -> Head
  | .interface isStatic hasStatic name => .interface isStatic hasStatic (Word.escape name)
  | .typeAlias name => .typeAlias (Word.escape name)
  | .var declared name => .var declared (Word.escape name)
  | .function isStatic emit name strings =>
    .function isStatic emit (name.map Word.escape) strings
  | .imported binding => .imported (Word.escape binding)
  | .module name => .module (Word.escape name)
  | h => h

def specialize : Head -> Head
  | .function isStatic none (some name) (some text :: strings) =>
    let raw := Word.unescape name
    .function isStatic (some (overloadTemplate raw text))
      (some (Word.escape (raw ++ "_" ++ text))) strings
  | h => h

end Head

theorem Decl.isStatic_head (d : Decl) : d.head.isStatic = d.isStatic := by
  cases d <;> rfl

theorem Decl.literal?_head (d : Decl) : d.head.literal? = d.literal? := by
  cases d <;> rfl

/-- The rewriting does `act` to heads, whatever else it changes. -/
structure Rewriting.ActsOn (w : Rewriting) (act : Head -> Head) : Prop where
  head : ∀ d, (w.apply d).head = act d.head
  param : ∀ p, (w.onParam p).type = p.type
  isStatic : ∀ h, (act h).isStatic = h.isStatic
  literal? : ∀ h, (act h).literal? = h.literal?

section

variable {w : Rewriting} {act : Head -> Head}

theorem Decl.isStatic_rewrite (hw : w.ActsOn act) (d : Decl) :
    (d.rewrite w).isStatic = d.isStatic := by
  -- Rebuilding works on what is inside, and the flag is not inside.
  have rebuilt : (d.rebuild w).isStatic = d.isStatic := by
    cases d <;> rfl
  rw [Decl.rewrite_eq_apply, ← Decl.isStatic_head, hw.head, hw.isStatic, Decl.isStatic_head,
    rebuilt]

theorem Decl.literal?_rewrite (hw : w.ActsOn act) (d : Decl) :
    (d.rewrite w).literal? = d.literal? := by
  have rebuilt : (d.rebuild w).literal? = d.literal? := by
    cases d <;> rfl
  rw [Decl.rewrite_eq_apply, ← Decl.literal?_head, hw.head, hw.literal?, Decl.literal?_head,
    rebuilt]

/-- Mapping members keeps the head of an interface if it keeps the flags of the
members. -/
theorem hasStaticMembers_map {g : Decl -> Decl} (hg : ∀ d, (g d).isStatic = d.isStatic)
    (members : List Decl) : (members.map g).any Decl.isStatic = members.any Decl.isStatic := by
  rw [List.any_map]
  congr 1
  funext d
  exact hg d

theorem Decl.head_rebuild (hw : w.ActsOn act) (d : Decl) : (d.rebuild w).head = d.head := by
  cases d with
  | interface i =>
      simp only [Decl.rebuild, Decl.head, Interface.hasStaticMembers,
        hasStaticMembers_map (Decl.isStatic_rewrite hw)]
  | function s =>
      have strings : ∀ p : Param, (p.rewrite w).type.literal? = p.type.literal? := fun p => by
        rw [Param.rewrite, hw.param, Decl.literal?_rewrite hw]
      simp only [Decl.rebuild, Decl.head, List.map_map, Function.comp_def, strings]
  | _ => rfl

theorem Decl.head_rewrite (hw : w.ActsOn act) (d : Decl) : (d.rewrite w).head = act d.head := by
  rw [Decl.rewrite_eq_apply, hw.head, Decl.head_rebuild hw]

end

namespace Rewriting

def KeepsHeads (w : Rewriting) : Prop :=
  w.ActsOn id

theorem keepsHeads_of_head {w : Rewriting} (head : ∀ d, (w.apply d).head = d.head)
    (param : ∀ p, (w.onParam p).type = p.type) : w.KeepsHeads :=
  ⟨head, param, fun _ => rfl, fun _ => rfl⟩

end Rewriting

/-! ## What the passes do to heads -/

theorem Decl.isStatic_resultOf (type d : Decl) : (Decl.resultOf type d).isStatic = d.isStatic := by
  cases d with
  | function s =>
      simp only [Decl.resultOf]
      split <;> rfl
  | _ => rfl

namespace Rewriting

theorem resolveSelf_keepsHeads : resolveSelf.KeepsHeads := by
  refine keepsHeads_of_head ?_ fun _ => rfl
  intro d
  cases d with
  | interface i =>
      simp only [resolveSelf, ofTypes, Decl.resolveSelf, Decl.head, Interface.hasStaticMembers,
        hasStaticMembers_map (Decl.isStatic_resultOf _)]
  | _ => rfl

theorem collapseArrays_keepsHeads (marker : String) : (collapseArrays marker).KeepsHeads := by
  refine keepsHeads_of_head ?_ fun _ => rfl
  intro d
  simp only [collapseArrays, ofTypes]
  unfold Decl.collapseArray
  split
  · split <;> rfl
  · rfl

theorem renameDates_keepsHeads : renameDates.KeepsHeads :=
  keepsHeads_of_head (fun d => by cases d <;> rfl) fun _ => rfl

theorem splitStatics_keepsHeads (suffix : String) : (splitStatics suffix).KeepsHeads :=
  keepsHeads_of_head (fun d => by cases d <;> rfl) fun _ => rfl

theorem addExports_keepsHeads (name suffix : String) : (addExports name suffix).KeepsHeads :=
  keepsHeads_of_head (fun d => by cases d <;> rfl) fun _ => rfl

theorem quoteNames_keepsHeads (bound : List String) : (quoteNames bound).KeepsHeads :=
  keepsHeads_of_head (fun d => by cases d <;> rfl) fun _ => rfl

theorem capUnions_keepsHeads (limit : Int) : (capUnions limit).KeepsHeads := by
  refine keepsHeads_of_head ?_ fun _ => rfl
  intro d
  cases d with
  | union optional alternatives =>
      simp only [capUnions, ofTypes, Decl.cappedUnion]
      split <;> rfl
  | _ => rfl

theorem escapeNames_actsOn : escapeNames.ActsOn Head.escape where
  head d := by cases d <;> rfl
  param _ := rfl
  isStatic h := by cases h <;> rfl
  literal? h := by cases h <;> rfl

end Rewriting

theorem Decl.head_quoted (typeParams : List Decl) (d : Decl) :
    (Decl.quoted typeParams d).head = d.head := by
  unfold Decl.quoted
  split
  · rfl
  · exact Decl.head_rewrite (Rewriting.quoteNames_keepsHeads _) d

theorem Decl.isStatic_quotedFunction (d : Decl) : d.quotedFunction.isStatic = d.isStatic := by
  cases d with
  | function s =>
      rw [← Decl.isStatic_head, Decl.quotedFunction, Decl.head_quoted, Decl.isStatic_head]
  | _ => rfl

theorem Decl.head_function_specialize (s : Signature) :
    (Decl.function s.specialize).head = (Decl.function s).head.specialize := by
  obtain ⟨emit, isStatic, name, typeParams, params, result⟩ := s
  cases emit with
  | some template => rfl
  | none =>
      cases name with
      | none => rfl
      | some name =>
          cases params with
          | nil => rfl
          | cons p params =>
              obtain ⟨paramName, optional, isRest, type⟩ := p
              cases type <;> rfl

namespace Rewriting

theorem quoteFunctions_keepsHeads : quoteFunctions.KeepsHeads := by
  refine keepsHeads_of_head ?_ fun _ => rfl
  intro d
  cases d with
  | interface i =>
      simp only [quoteFunctions, ofTypes, Decl.quotedMembers, Decl.head,
        Interface.hasStaticMembers, hasStaticMembers_map Decl.isStatic_quotedFunction]
  | _ => rfl

theorem quoteTypes_keepsHeads : quoteTypes.KeepsHeads := by
  refine keepsHeads_of_head ?_ fun _ => rfl
  intro d
  cases d with
  | interface i => exact Decl.head_quoted i.typeParams (.interface i)
  | typeAlias a => exact Decl.head_quoted a.typeParams (.typeAlias a)
  | _ => rfl

theorem specializeOverloads_actsOn : specializeOverloads.ActsOn Head.specialize where
  head d := by
    cases d with
    | function s => exact Decl.head_function_specialize s
    | _ => rfl
  param _ := rfl
  isStatic h := by
    unfold Head.specialize
    split <;> rfl
  literal? h := by
    unfold Head.specialize
    split <;> rfl

end Rewriting

theorem Decl.head_importedAt (path : List String) (d : Decl) :
    (d.importedAt path).head = d.head.toImport := by
  cases d with
  | module m =>
      cases m
      rw [Decl.importedAt]
      rfl
  | var v =>
      obtain ⟨declared, name, type⟩ := v
      cases declared <;> rfl
  | _ => rfl

/-- The half that stays has no static member, and the holder has one. -/
theorem Decl.map_head_splitStatic (suffix : String) (d : Decl) :
    (Decl.splitStatic suffix d).map Decl.head = d.head.split suffix := by
  cases d with
  | interface i =>
      cases isStatic : i.isStatic with
      | true => simp [Decl.splitStatic, Decl.head, isStatic, Head.split]
      | false =>
          cases hasStatic : i.hasStaticMembers with
          | false => simp [Decl.splitStatic, Decl.head, isStatic, hasStatic, Head.split]
          | true =>
              have whole : (Decl.interface i).head = .interface false true i.name := by
                rw [Decl.head, isStatic, hasStatic]
              have rest : (Decl.interface { i with members := i.instanceMembers }).head =
                  .interface false false i.name := by
                simp [Decl.head, Interface.hasStaticMembers, Interface.instanceMembers, isStatic]
              have holder : (Decl.interface (i.holder suffix)).head =
                  .interface true true (i.name ++ suffix) := by
                simpa [Decl.head, Interface.hasStaticMembers, Interface.holder,
                  Interface.staticMembers] using hasStatic
              have halves : Decl.splitStatic suffix (.interface i) =
                  [.interface { i with members := i.instanceMembers },
                    .interface (i.holder suffix)] := if_neg (by simp [isStatic, hasStatic])
              rw [whole, halves, List.map_cons, rest, List.map_singleton, holder, Head.split]
  | _ => rfl

theorem Decl.isSome_exported? (suffix : String) (d : Decl) :
    (d.exported? suffix).isSome = d.head.isExported := by
  cases d with
  | interface i => cases h : i.isStatic <;> simp [Decl.exported?, Decl.head, Head.isExported, h]
  | _ => rfl

end Bindgen
