import Bindgen.Proofs.Blocks.Lines
import Bindgen.Proofs.Printable

/-! # Why a file cannot be printed

Only a function among the members of an interface can fail to print. A function
has a fault if it has no name, or else if one of its rest parameters is no array,
and the cause that printing a file ends with is the fault of the first such member
in the order of the lines. Everything else that a file holds has a printed form or
is left out.
-/

namespace Bindgen

namespace Traced

variable {ω ε α β : Type}

def cause? (x : Traced ω ε α) : Option ε :=
  match x.outcome with
  | .ok _ => none
  | .error cause => some cause

theorem cause?_eq_some_iff {x : Traced ω ε α} {cause : ε} :
    x.cause? = some cause ↔ x.outcome = .error cause := by
  unfold cause?
  cases x.outcome <;> simp

@[simp] theorem cause?_done (a : α) : (done a : Traced ω ε α).cause? = none := rfl

/-- The first of two computations that fails gives the cause. Where the second one
fails, it does so whatever it is given. -/
theorem cause?_bind {x : Traced ω ε α} {f : α -> Traced ω ε β} {later : Option ε}
    (h : ∀ a, (f a).cause? = later) : (x >>= f).cause? = x.cause?.or later := by
  obtain ⟨events, outcome⟩ := x
  cases outcome with
  | ok a => exact h a
  | error cause => rfl

theorem cause?_bind_of_none {x : Traced ω ε α} {f : α -> Traced ω ε β}
    (h : ∀ a, (f a).cause? = none) : (x >>= f).cause? = x.cause? := by
  rw [cause?_bind h, Option.or_none]

theorem cause?_map (f : α -> β) (x : Traced ω ε α) : (f <$> x).cause? = x.cause? :=
  cause?_bind_of_none fun _ => rfl

theorem cause?_traverse (f : α -> Traced ω ε β) (as : List α) :
    (traverse f as).cause? = as.findSome? fun a => (f a).cause? := by
  induction as with
  | nil => rfl
  | cons a as ih =>
      rw [traverse, cause?_bind fun b => cause?_bind_of_none fun bs => cause?_done (b :: bs), ih,
        List.findSome?_cons]
      cases (f a).cause? <;> rfl

def each (f : α -> Traced ω ε β) : List α -> Traced ω ε Unit
  | [] => done ()
  | a :: as => f a >>= fun _ => each f as

theorem each_append (f : α -> Traced ω ε β) (as bs : List α) :
    each f (as ++ bs) = each f as >>= fun _ => each f bs := by
  induction as with
  | nil => rfl
  | cons a as ih => rw [List.cons_append, each, ih, each, bind_assoc]

theorem cause?_each (f : α -> Traced ω ε β) (as : List α) :
    (each f as).cause? = as.findSome? fun a => (f a).cause? := by
  induction as with
  | nil => rfl
  | cons a as ih =>
      rw [each, cause?_bind fun _ => ih, List.findSome?_cons]
      cases (f a).cause? <;> rfl

end Traced

/-! ## Faults of functions -/

/-- A rest parameter of the function that is no array. -/
def Param.fault? (function : String) (p : Param) : Option PrintError :=
  match p.isRest, p.type with
  | false, _ => none
  | true, .array _ => none
  | true, _ => some (.restNotArray function p.name)

/-- What is wrong with a function: a missing name comes before all parameters, and
these come from left to right. -/
def Signature.fault? (s : Signature) : Option PrintError :=
  match s.name with
  | none => some .unnamedFunction
  | some name => s.params.findSome? (Param.fault? name)

theorem Param.fault?_eq_none_iff (function : String) (p : Param) :
    p.fault? function = none ↔ (p.isRest = true -> ∃ element, p.type = .array element) := by
  unfold Param.fault?
  split <;> simp_all

theorem Signature.fault?_eq_none_iff (s : Signature) : s.fault? = none ↔ s.Printable := by
  unfold Signature.fault?
  split
  case h_1 unnamed =>
      refine ⟨nofun, fun h => ?_⟩
      simpa [unnamed] using h.named
  case h_2 name named =>
      rw [List.findSome?_eq_none_iff]
      simp only [Param.fault?_eq_none_iff]
      exact ⟨fun rest => ⟨by simp [named], rest⟩, fun h => h.rest⟩

theorem Param.cause?_print (function : String) (p : Param) :
    (p.print function).cause? = p.fault? function := by
  unfold Param.print Param.fault?
  cases p.isRest with
  | false => rfl
  | true => cases p.type <;> rfl

theorem Signature.cause?_print (s : Signature) : s.print.cause? = s.fault? := by
  unfold Signature.print Signature.fault?
  cases s.name with
  | none => rfl
  | some name =>
      simp only
      rw [Traced.cause?_bind_of_none fun _ => rfl, Traced.cause?_traverse]
      simp only [Param.cause?_print]

/-! ## The walk through a file -/

mutual

/-- The functions among the members of the interfaces in an entry, in the order in
which they are printed. -/
def Decl.memberFunctions : Decl -> List Signature
  | .interface i => i.members.filterMap Decl.function?
  | .module ⟨_, entries⟩ => Decl.allMemberFunctions entries
  | _ => []

def Decl.allMemberFunctions : List Decl -> List Signature
  | [] => []
  | d :: ds => d.memberFunctions ++ Decl.allMemberFunctions ds

end

def File.memberFunctions (f : File) : List Signature :=
  f.printed.flatMap fun m => Decl.allMemberFunctions m.entries

theorem Decl.cause?_printMember (d : Decl) :
    d.printMember.cause? = d.function?.bind Signature.fault? := by
  cases d with
  | function s => exact s.cause?_print
  | property p =>
      rw [Decl.printMember, Property.print]
      cases p.index <;> rfl
  | _ => rfl

theorem Interface.cause?_print (indent : String) (i : Interface) :
    (i.print indent).cause? = (i.members.filterMap Decl.function?).findSome? Signature.fault? := by
  have inherits : (Traced.traverse printInherit i.inherits).cause? = none := by
    rw [Traced.cause?_traverse, List.findSome?_eq_none_iff]
    exact fun _ _ => rfl
  have members : (Traced.traverse Decl.printMember i.members).cause? =
      (i.members.filterMap Decl.function?).findSome? Signature.fault? := by
    rw [Traced.cause?_traverse, ← List.head?_filterMap, ← List.head?_filterMap,
      List.filterMap_filterMap]
    simp only [Decl.cause?_printMember]
  rw [Interface.print, Traced.cause?_bind fun _ => Traced.cause?_bind fun _ =>
    Traced.cause?_bind_of_none fun _ => rfl, inherits, members]
  rfl

mutual

/-- An entry fails to print with the fault of the first function that has one. -/
theorem Decl.cause?_printEntry (indent : String) (d : Decl) :
    (d.printEntry indent).cause? = d.memberFunctions.findSome? Signature.fault? := by
  cases d with
  | interface i =>
      rw [Decl.printEntry, Decl.memberFunctions]
      exact i.cause?_print indent
  | typeAlias a => rfl
  | module m =>
      obtain ⟨name, entries⟩ := m
      rw [Decl.printEntry, Decl.memberFunctions, Traced.cause?_bind_of_none fun _ => rfl]
      exact Decl.cause?_printEntries (moduleIndent indent name) entries
  | _ => rfl

theorem Decl.cause?_printEntries (indent : String) (ds : List Decl) :
    (Decl.printEntries indent ds).cause? =
      (Decl.allMemberFunctions ds).findSome? Signature.fault? := by
  cases ds with
  | nil => rfl
  | cons d ds =>
      rw [Decl.printEntries, Decl.allMemberFunctions, List.findSome?_append,
        ← Decl.cause?_printEntry indent d, ← Decl.cause?_printEntries indent ds]
      exact Traced.cause?_bind fun _ => Traced.cause?_bind_of_none fun _ => rfl

end

theorem Decl.allMemberFunctions_modules (ms : List Module) :
    Decl.allMemberFunctions (ms.map .module) =
      ms.flatMap fun m => Decl.allMemberFunctions m.entries := by
  induction ms with
  | nil => rfl
  | cons m ms ih =>
      obtain ⟨name, entries⟩ := m
      rw [List.map_cons, Decl.allMemberFunctions, ih, List.flatMap_cons, Decl.memberFunctions]

/-- A file fails to print with the fault of the first function that has one. -/
theorem File.cause?_print (f : File) :
    f.print.cause? = f.memberFunctions.findSome? Signature.fault? := by
  rw [File.print, printModules_eq, Traced.cause?_map, Decl.cause?_printEntries,
    Decl.allMemberFunctions_modules]
  rfl

/-! ## Where the functions are -/

theorem Decl.mem_allMemberFunctions {s : Signature} {ds : List Decl} :
    s ∈ Decl.allMemberFunctions ds ↔ ∃ d ∈ ds, s ∈ d.memberFunctions := by
  induction ds with
  | nil => simp [Decl.allMemberFunctions]
  | cons d ds ih => simp [Decl.allMemberFunctions, ih]

theorem Decl.mem_memberFunctions_interface {s : Signature} {i : Interface} :
    s ∈ (Decl.interface i).memberFunctions ↔ .function s ∈ i.members := by
  rw [Decl.memberFunctions, List.mem_filterMap]
  constructor
  · rintro ⟨d, hd, isFunction⟩
    cases d with
    | function s' => cases isFunction; exact hd
    | _ => cases isFunction
  · exact fun h => ⟨_, h, rfl⟩

theorem Decl.mem_memberFunctions_module {s : Signature} {m : Module} :
    s ∈ (Decl.module m).memberFunctions ↔ ∃ d ∈ m.entries, s ∈ d.memberFunctions := by
  cases m
  rw [Decl.memberFunctions, Decl.mem_allMemberFunctions]

theorem File.mem_memberFunctions {f : File} {s : Signature} :
    s ∈ f.memberFunctions ↔ ∃ m ∈ f.modules, ∃ d ∈ m.entries, s ∈ d.memberFunctions := by
  simp only [File.memberFunctions, File.printed, List.mem_flatMap, List.mem_filter,
    Decl.mem_allMemberFunctions]
  constructor
  · rintro ⟨m, ⟨hm, -⟩, d, hd, hs⟩
    exact ⟨m, hm, d, hd, hs⟩
  · rintro ⟨m, hm, d, hd, hs⟩
    have nonempty : m.entries ≠ [] := List.ne_nil_of_mem hd
    exact ⟨m, ⟨hm, by simpa using nonempty⟩, d, hd, hs⟩

mutual

/-- A function in an entry of a module that is reached is a member of an interface
in that module or in one below it. -/
theorem File.Reaches.interface_of_entry {f : File} {m : Module} (reached : f.Reaches m) (d : Decl)
    (hd : d ∈ m.entries) {s : Signature} (hs : s ∈ d.memberFunctions) :
    ∃ m i, f.Reaches m ∧ .interface i ∈ m.entries ∧ .function s ∈ i.members := by
  cases d with
  | interface i => exact ⟨m, i, reached, hd, Decl.mem_memberFunctions_interface.mp hs⟩
  | module inner =>
      obtain ⟨name, entries⟩ := inner
      rw [Decl.memberFunctions] at hs
      exact File.Reaches.interface_of_entries (.nested reached hd) entries (fun _ h => h) hs
  | _ => simp [Decl.memberFunctions] at hs

theorem File.Reaches.interface_of_entries {f : File} {m : Module} (reached : f.Reaches m)
    (ds : List Decl) (hds : ∀ d ∈ ds, d ∈ m.entries) {s : Signature}
    (hs : s ∈ Decl.allMemberFunctions ds) :
    ∃ m i, f.Reaches m ∧ .interface i ∈ m.entries ∧ .function s ∈ i.members := by
  cases ds with
  | nil => simp [Decl.allMemberFunctions] at hs
  | cons d ds =>
      rw [Decl.allMemberFunctions] at hs
      rcases List.mem_append.mp hs with hs | hs
      · exact reached.interface_of_entry d (hds d List.mem_cons_self) hs
      · exact reached.interface_of_entries ds (fun e he => hds e (List.mem_cons_of_mem d he)) hs

end

theorem File.Reaches.mem_memberFunctions {f : File} {m : Module} (reached : f.Reaches m)
    {d : Decl} (hd : d ∈ m.entries) {s : Signature} (hs : s ∈ d.memberFunctions) :
    s ∈ f.memberFunctions := by
  induction reached generalizing d with
  | top hm => exact File.mem_memberFunctions.mpr ⟨_, hm, d, hd, hs⟩
  | nested _ hinner ih => exact ih hinner (Decl.mem_memberFunctions_module.mpr ⟨d, hd, hs⟩)

theorem File.mem_memberFunctions_iff_reaches {f : File} {s : Signature} :
    s ∈ f.memberFunctions ↔
      ∃ m i, f.Reaches m ∧ .interface i ∈ m.entries ∧ .function s ∈ i.members := by
  constructor
  · intro h
    obtain ⟨m, hm, d, hd, hs⟩ := File.mem_memberFunctions.mp h
    exact File.Reaches.interface_of_entry (.top hm) d hd hs
  · rintro ⟨m, i, reached, hi, hs⟩
    exact reached.mem_memberFunctions hi (Decl.mem_memberFunctions_interface.mpr hs)

/-- Printing a file fails exactly if some interface that is reached has a function
that cannot be printed. The cause is the fault of the first such function in the
order of the lines. -/
theorem File.print_fails_iff (f : File) :
    ((∃ cause, f.print.outcome = .error cause) ↔
      ∃ m i s, f.Reaches m ∧ .interface i ∈ m.entries ∧ .function s ∈ i.members ∧
        ¬ s.Printable) ∧
    ∀ cause, f.print.outcome = .error cause ↔
      ∃ before s after, f.memberFunctions = before ++ s :: after ∧
        (∀ earlier ∈ before, earlier.Printable) ∧ s.fault? = some cause := by
  simp only [← Traced.cause?_eq_some_iff, File.cause?_print]
  constructor
  · have faulty : (f.memberFunctions.findSome? Signature.fault?).isSome ↔
        ∃ s ∈ f.memberFunctions, ¬ s.Printable := by
      rw [List.findSome?_isSome_iff]
      simp only [Option.isSome_iff_ne_none, ne_eq, Signature.fault?_eq_none_iff]
    rw [← Option.isSome_iff_exists, faulty]
    constructor
    · rintro ⟨s, hs, unprintable⟩
      obtain ⟨m, i, reached, hi, hs⟩ := File.mem_memberFunctions_iff_reaches.mp hs
      exact ⟨m, i, s, reached, hi, hs, unprintable⟩
    · rintro ⟨m, i, s, reached, hi, hs, unprintable⟩
      exact ⟨s, File.mem_memberFunctions_iff_reaches.mpr ⟨m, i, reached, hi, hs⟩, unprintable⟩
  · intro cause
    simp only [List.findSome?_eq_some_iff, Signature.fault?_eq_none_iff, and_comm]

end Bindgen
