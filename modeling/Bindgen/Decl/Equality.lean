import Bindgen.Decl.Basic

/-! # Equality of declarations

Two declarations are equal when they are built in the same way. `Decl.beq`
tests it, `DecidableEq Decl` follows, and `Decl.dedupe` keeps the first of
every group of equal declarations.
-/

namespace Bindgen

mutual

def Decl.beq : Decl -> Decl -> Bool
  | .interface i, other =>
    match other with
    | .interface j => Interface.beq i j
    | _ => false
  | .enum e, other =>
    match other with
    | .enum e' => e == e'
    | _ => false
  | .property p, other =>
    match other with
    | .property q => Property.beq p q
    | _ => false
  | .param p, other =>
    match other with
    | .param q => Param.beq p q
    | _ => false
  | .array t, other =>
    match other with
    | .array t' => Decl.beq t t'
    | _ => false
  | .todo, other =>
    match other with
    | .todo => true
    | _ => false
  | .absent, other =>
    match other with
    | .absent => true
    | _ => false
  | .named n, other =>
    match other with
    | .named n' => n == n'
    | _ => false
  | .function s, other =>
    match other with
    | .function s' => Signature.beq s s'
    | _ => false
  | .union o ts, other =>
    match other with
    | .union o' ts' => o == o' && Decl.beqAll ts ts'
    | _ => false
  | .typeAlias a, other =>
    match other with
    | .typeAlias b => Alias.beq a b
    | _ => false
  | .generic t ts, other =>
    match other with
    | .generic t' ts' => Decl.beq t t' && Decl.beqAll ts ts'
    | _ => false
  | .tuple ts, other =>
    match other with
    | .tuple ts' => Decl.beqAll ts ts'
    | _ => false
  | .module m, other =>
    match other with
    | .module m' => Module.beq m m'
    | _ => false
  | .file f, other =>
    match other with
    | .file g => File.beq f g
    | _ => false
  | .var v, other =>
    match other with
    | .var w => Variable.beq v w
    | _ => false
  | .literal s, other =>
    match other with
    | .literal s' => s == s'
    | _ => false
  | .imported i, other =>
    match other with
    | .imported i' => i == i'
    | _ => false
  | .self, other =>
    match other with
    | .self => true
    | _ => false
termination_by structural x => x

def Interface.beq : Interface -> Interface -> Bool
  | ⟨s, n, tps, is, ms⟩, ⟨s', n', tps', is', ms'⟩ =>
    s == s' && n == n' && Decl.beqAll tps tps' && Decl.beqAll is is' && Decl.beqAll ms ms'
termination_by structural x => x

def Property.beq : Property -> Property -> Bool
  | ⟨e, s, i, n, o, t⟩, ⟨e', s', i', n', o', t'⟩ =>
    e == e' && s == s' && Param.beqOption i i' && n == n' && o == o' && Decl.beq t t'
termination_by structural x => x

def Param.beq : Param -> Param -> Bool
  | ⟨n, o, r, t⟩, ⟨n', o', r', t'⟩ => n == n' && o == o' && r == r' && Decl.beq t t'
termination_by structural x => x

def Signature.beq : Signature -> Signature -> Bool
  | ⟨e, s, n, tps, ps, r⟩, ⟨e', s', n', tps', ps', r'⟩ =>
    e == e' && s == s' && n == n' && Decl.beqAll tps tps' && Param.beqAll ps ps' && Decl.beq r r'
termination_by structural x => x

def Alias.beq : Alias -> Alias -> Bool
  | ⟨n, t, tps⟩, ⟨n', t', tps'⟩ => n == n' && Decl.beq t t' && Decl.beqAll tps tps'
termination_by structural x => x

def Variable.beq : Variable -> Variable -> Bool
  | ⟨d, n, t⟩, ⟨d', n', t'⟩ => d == d' && n == n' && Decl.beq t t'
termination_by structural x => x

def Module.beq : Module -> Module -> Bool
  | ⟨n, ts⟩, ⟨n', ts'⟩ => n == n' && Decl.beqAll ts ts'
termination_by structural x => x

def File.beq : File -> File -> Bool
  | ⟨n, os, ms⟩, ⟨n', os', ms'⟩ => n == n' && os == os' && Module.beqAll ms ms'
termination_by structural x => x

def Decl.beqAll : List Decl -> List Decl -> Bool
  | [], [] => true
  | t :: ts, t' :: ts' => Decl.beq t t' && Decl.beqAll ts ts'
  | _, _ => false
termination_by structural x => x

def Param.beqAll : List Param -> List Param -> Bool
  | [], [] => true
  | p :: ps, q :: qs => Param.beq p q && Param.beqAll ps qs
  | _, _ => false
termination_by structural x => x

def Param.beqOption : Option Param -> Option Param -> Bool
  | none, none => true
  | some p, some q => Param.beq p q
  | _, _ => false
termination_by structural x => x

def Module.beqAll : List Module -> List Module -> Bool
  | [], [] => true
  | m :: ms, n :: ns => Module.beq m n && Module.beqAll ms ns
  | _, _ => false
termination_by structural x => x

end

mutual

/-- The test succeeds exactly on equal declarations. -/
theorem Decl.beq_iff : (a b : Decl) -> (Decl.beq a b = true ↔ a = b)
  | .interface i, b => by cases b <;> simp [Decl.beq, Interface.beq_iff i]
  | .enum _, b => by cases b <;> simp [Decl.beq]
  | .property p, b => by cases b <;> simp [Decl.beq, Property.beq_iff p]
  | .param p, b => by cases b <;> simp [Decl.beq, Param.beq_iff p]
  | .array t, b => by cases b <;> simp [Decl.beq, Decl.beq_iff t]
  | .todo, b => by cases b <;> simp [Decl.beq]
  | .absent, b => by cases b <;> simp [Decl.beq]
  | .named _, b => by cases b <;> simp [Decl.beq]
  | .function s, b => by cases b <;> simp [Decl.beq, Signature.beq_iff s]
  | .union _ ts, b => by cases b <;> simp [Decl.beq, Decl.beqAll_iff ts]
  | .typeAlias a, b => by cases b <;> simp [Decl.beq, Alias.beq_iff a]
  | .generic t ts, b => by cases b <;> simp [Decl.beq, Decl.beq_iff t, Decl.beqAll_iff ts]
  | .tuple ts, b => by cases b <;> simp [Decl.beq, Decl.beqAll_iff ts]
  | .module m, b => by cases b <;> simp [Decl.beq, Module.beq_iff m]
  | .file f, b => by cases b <;> simp [Decl.beq, File.beq_iff f]
  | .var v, b => by cases b <;> simp [Decl.beq, Variable.beq_iff v]
  | .literal _, b => by cases b <;> simp [Decl.beq]
  | .imported _, b => by cases b <;> simp [Decl.beq]
  | .self, b => by cases b <;> simp [Decl.beq]
termination_by structural x => x

theorem Interface.beq_iff : (i j : Interface) -> (Interface.beq i j = true ↔ i = j)
  | ⟨_, _, tps, is, ms⟩, ⟨_, _, _, _, _⟩ => by
    simp [Interface.beq, Decl.beqAll_iff tps, Decl.beqAll_iff is, Decl.beqAll_iff ms, and_assoc]
termination_by structural x => x

theorem Property.beq_iff : (p q : Property) -> (Property.beq p q = true ↔ p = q)
  | ⟨_, _, i, _, _, t⟩, ⟨_, _, _, _, _, _⟩ => by
    simp [Property.beq, Param.beqOption_iff i, Decl.beq_iff t, and_assoc]
termination_by structural x => x

theorem Param.beq_iff : (p q : Param) -> (Param.beq p q = true ↔ p = q)
  | ⟨_, _, _, t⟩, ⟨_, _, _, _⟩ => by simp [Param.beq, Decl.beq_iff t, and_assoc]
termination_by structural x => x

theorem Signature.beq_iff : (s s' : Signature) -> (Signature.beq s s' = true ↔ s = s')
  | ⟨_, _, _, tps, ps, r⟩, ⟨_, _, _, _, _, _⟩ => by
    simp [Signature.beq, Decl.beqAll_iff tps, Param.beqAll_iff ps, Decl.beq_iff r, and_assoc]
termination_by structural x => x

theorem Alias.beq_iff : (a b : Alias) -> (Alias.beq a b = true ↔ a = b)
  | ⟨_, t, tps⟩, ⟨_, _, _⟩ => by
    simp [Alias.beq, Decl.beq_iff t, Decl.beqAll_iff tps, and_assoc]
termination_by structural x => x

theorem Variable.beq_iff : (v w : Variable) -> (Variable.beq v w = true ↔ v = w)
  | ⟨_, _, t⟩, ⟨_, _, _⟩ => by simp [Variable.beq, Decl.beq_iff t, and_assoc]
termination_by structural x => x

theorem Module.beq_iff : (m n : Module) -> (Module.beq m n = true ↔ m = n)
  | ⟨_, ts⟩, ⟨_, _⟩ => by simp [Module.beq, Decl.beqAll_iff ts]
termination_by structural x => x

theorem File.beq_iff : (f g : File) -> (File.beq f g = true ↔ f = g)
  | ⟨_, _, ms⟩, ⟨_, _, _⟩ => by simp [File.beq, Module.beqAll_iff ms, and_assoc]
termination_by structural x => x

theorem Decl.beqAll_iff : (ts us : List Decl) -> (Decl.beqAll ts us = true ↔ ts = us)
  | [], us => by cases us <;> simp [Decl.beqAll]
  | t :: ts, us => by cases us <;> simp [Decl.beqAll, Decl.beq_iff t, Decl.beqAll_iff ts]
termination_by structural x => x

theorem Param.beqAll_iff : (ps qs : List Param) -> (Param.beqAll ps qs = true ↔ ps = qs)
  | [], qs => by cases qs <;> simp [Param.beqAll]
  | p :: ps, qs => by cases qs <;> simp [Param.beqAll, Param.beq_iff p, Param.beqAll_iff ps]
termination_by structural x => x

theorem Param.beqOption_iff : (p q : Option Param) -> (Param.beqOption p q = true ↔ p = q)
  | none, q => by cases q <;> simp [Param.beqOption]
  | some p, q => by cases q <;> simp [Param.beqOption, Param.beq_iff p]
termination_by structural x => x

theorem Module.beqAll_iff : (ms ns : List Module) -> (Module.beqAll ms ns = true ↔ ms = ns)
  | [], ns => by cases ns <;> simp [Module.beqAll]
  | m :: ms, ns => by cases ns <;> simp [Module.beqAll, Module.beq_iff m, Module.beqAll_iff ms]
termination_by structural x => x

end

instance : DecidableEq Decl := fun a b =>
  decidable_of_iff (Decl.beq a b = true) (Decl.beq_iff a b)

namespace Decl

/-- Drop every declaration that equals one that was kept before. -/
def dedupeFrom (kept : List Decl) : List Decl -> List Decl
  | [] => kept
  | d :: ds => if d ∈ kept then dedupeFrom kept ds else dedupeFrom (kept ++ [d]) ds

/-- The declarations without repetitions, each at its first place. -/
def dedupe (ds : List Decl) : List Decl :=
  dedupeFrom [] ds

theorem nodup_dedupeFrom (ds : List Decl) {kept : List Decl} (h : kept.Nodup) :
    (dedupeFrom kept ds).Nodup := by
  induction ds generalizing kept with
  | nil => exact h
  | cons d ds ih =>
      rw [dedupeFrom]
      split
      case isTrue => exact ih h
      case isFalse new =>
          apply ih
          rw [List.nodup_append]
          refine ⟨h, by simp, ?_⟩
          rintro a ha b hb rfl
          rw [List.mem_singleton.mp hb] at ha
          exact new ha

theorem mem_dedupeFrom {d : Decl} (ds : List Decl) {kept : List Decl}
    (h : d ∈ dedupeFrom kept ds) : d ∈ kept ∨ d ∈ ds := by
  induction ds generalizing kept with
  | nil => exact .inl h
  | cons e ds ih =>
      rw [dedupeFrom] at h
      split at h
      · rcases ih h with h | h
        · exact .inl h
        · exact .inr (List.mem_cons_of_mem e h)
      · rcases ih h with h | h
        · rcases List.mem_append.mp h with h | h
          · exact .inl h
          · exact .inr (List.mem_cons.mpr (.inl (List.mem_singleton.mp h)))
        · exact .inr (List.mem_cons_of_mem e h)

theorem nodup_dedupe (ds : List Decl) : (dedupe ds).Nodup :=
  nodup_dedupeFrom ds List.nodup_nil

theorem mem_of_mem_dedupe {d : Decl} {ds : List Decl} (h : d ∈ dedupe ds) : d ∈ ds := by
  rcases mem_dedupeFrom ds h with h | h
  · cases h
  · exact h

end Decl

end Bindgen
