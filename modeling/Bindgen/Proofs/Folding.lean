/-! # Folding lists by key

Some elements of a list have a key. Folding joins each of them into the first
one with its key and leaves the rest where it is. `insert` is one step of it,
from left to right; `gather` is the closed form, which takes all elements that
belong to the head at once. Everything below is proved of the closed form, and
`foldl_insert` carries it to the steps.
-/

namespace Bindgen

/-- How the elements of a list are folded: which of them have a key, and what a
later element of the same key adds to the first. Joining keeps the key. -/
structure Folding (α κ : Type) where
  key : α -> Option κ
  join : α -> α -> α
  key_join : ∀ first later, key (join first later) = key first

namespace Folding

variable {α κ : Type} [DecidableEq κ]

def meets (w : Folding α κ) (first later : α) : Bool :=
  (w.key first).isSome && decide (w.key later = w.key first)

/-- Join an element into the one of its key, or put it at the end. -/
def insert (w : Folding α κ) (a : α) : List α -> List α
  | [] => [a]
  | b :: bs => if w.meets b a then w.join b a :: bs else b :: w.insert a bs

def mates (w : Folding α κ) (a : α) (as : List α) : List α :=
  as.filter (w.meets a)

def rest (w : Folding α κ) (a : α) (as : List α) : List α :=
  as.filter fun b => !w.meets a b

/-- Join all elements of one key into the first of them. -/
def gather (w : Folding α κ) : List α -> List α
  | [] => []
  | a :: as => (w.mates a as).foldl w.join a :: w.gather (w.rest a as)
termination_by as => as.length
decreasing_by
  exact Nat.lt_succ_of_le (List.length_filter_le _ _)

variable {w : Folding α κ}

/-! ## Elements that meet -/

theorem meets_eq_false_of_key_eq_none {a : α} (h : w.key a = none) (b : α) :
    w.meets a b = false := by
  simp [meets, h]

theorem meets_eq_false_of_later_eq_none {b : α} (h : w.key b = none) (a : α) :
    w.meets a b = false := by
  cases ha : w.key a <;> simp [meets, h, ha]

theorem key_eq_of_meets {a b : α} (h : w.meets a b = true) : w.key b = w.key a := by
  simp only [meets, Bool.and_eq_true, decide_eq_true_eq] at h
  exact h.2

theorem isSome_of_meets {a b : α} (h : w.meets a b = true) : (w.key a).isSome := by
  simp only [meets, Bool.and_eq_true] at h
  exact h.1

theorem mem_mates {a b : α} {as : List α} :
    b ∈ w.mates a as ↔ b ∈ as ∧ w.meets a b = true :=
  List.mem_filter

theorem mem_rest {a b : α} {as : List α} :
    b ∈ w.rest a as ↔ b ∈ as ∧ w.meets a b = false := by
  simp [rest]

theorem meets_congr {a a' : α} (h : w.key a = w.key a') (b : α) :
    w.meets a b = w.meets a' b := by
  simp [meets, h]

theorem meets_later_congr {b b' : α} (h : w.key b = w.key b') (a : α) :
    w.meets a b = w.meets a b' := by
  simp [meets, h]

omit [DecidableEq κ] in
theorem key_foldl_join (a : α) (bs : List α) : w.key (bs.foldl w.join a) = w.key a := by
  induction bs generalizing a with
  | nil => rfl
  | cons b bs ih => rw [List.foldl_cons, ih, w.key_join]

/-! ## The closed form and the steps -/

@[simp] theorem gather_nil : w.gather [] = [] := by
  rw [gather]

theorem gather_cons (a : α) (as : List α) :
    w.gather (a :: as) = (w.mates a as).foldl w.join a :: w.gather (w.rest a as) := by
  rw [gather]

theorem gather_cons_of_forall_not_meets {a : α} {as : List α}
    (h : ∀ b ∈ as, w.meets a b = false) : w.gather (a :: as) = a :: w.gather as := by
  have none : w.mates a as = [] := by simpa [mates, List.filter_eq_nil_iff] using h
  have all : w.rest a as = as := by simpa [rest, List.filter_eq_self] using h
  rw [gather_cons, none, all]
  rfl

theorem gather_cons_of_key_eq_none {a : α} (h : w.key a = none) (as : List α) :
    w.gather (a :: as) = a :: w.gather as :=
  gather_cons_of_forall_not_meets fun b _ => meets_eq_false_of_key_eq_none h b

/-- Elements of one key are folded into a single one. -/
theorem gather_eq_singleton {a : α} {as : List α} (h : ∀ b ∈ as, w.meets a b = true) :
    w.gather (a :: as) = [as.foldl w.join a] := by
  have all : w.mates a as = as := by simpa [mates, List.filter_eq_self] using h
  have none : w.rest a as = [] := by simpa [rest, List.filter_eq_nil_iff] using h
  rw [gather_cons, all, none, gather_nil]

theorem insert_of_key_eq_none {a : α} (h : w.key a = none) (as : List α) :
    w.insert a as = as ++ [a] := by
  induction as with
  | nil => rfl
  | cons b bs ih => simp [insert, meets_eq_false_of_later_eq_none h, ih]

/-- One more element at the end is one more step. -/
theorem gather_concat (as : List α) (a : α) : w.gather (as ++ [a]) = w.insert a (w.gather as) := by
  induction as using gather.induct w with
  | case1 => simp [gather_cons, insert, mates, rest]
  | case2 b bs ih =>
      have hb : w.meets ((w.mates b bs).foldl w.join b) a = w.meets b a :=
        meets_congr (key_foldl_join b _) a
      rw [List.cons_append, gather_cons, gather_cons, insert, hb]
      by_cases h : w.meets b a = true
      · simp [mates, rest, h]
      · have mates_eq : w.mates b (bs ++ [a]) = w.mates b bs := by simp [mates, h]
        have rest_eq : w.rest b (bs ++ [a]) = w.rest b bs ++ [a] := by simp [rest, h]
        rw [mates_eq, rest_eq, ih, if_neg h]

theorem foldl_insert_gather (as bs : List α) :
    bs.foldl (fun acc b => w.insert b acc) (w.gather as) = w.gather (as ++ bs) := by
  induction bs generalizing as with
  | nil => simp
  | cons b bs ih =>
      rw [List.foldl_cons, ← gather_concat, ih, List.append_assoc]
      rfl

/-- All steps together give the closed form. -/
theorem foldl_insert (as : List α) :
    as.foldl (fun acc a => w.insert a acc) [] = w.gather as := by
  simpa using foldl_insert_gather (w := w) [] as

/-! ## What is in the result -/

/-- What joining keeps holds of the whole result. -/
theorem forall_mem_gather {p : α -> Prop} (hp : ∀ a b, p a -> p b -> p (w.join a b)) {as : List α}
    (h : ∀ a ∈ as, p a) : ∀ a ∈ w.gather as, p a := by
  induction as using gather.induct w with
  | case1 => simp
  | case2 b bs ih =>
      have hbs : ∀ c ∈ bs, p c := fun c hc => h c (List.mem_cons_of_mem b hc)
      intro a ha
      rw [gather_cons] at ha
      rcases List.mem_cons.mp ha with rfl | ha
      · exact List.foldlRecOn _ _ (h b List.mem_cons_self) fun acc hacc c hc =>
          hp acc c hacc (hbs c (mem_mates.mp hc).1)
      · exact ih (fun c hc => hbs c (mem_rest.mp hc).1) a ha

omit [DecidableEq κ] in
theorem foldl_join_congr {v : Folding α κ} {p : α -> Prop}
    (hp : ∀ a b, p a -> p b -> v.join a b = w.join a b ∧ p (w.join a b)) {a : α} (ha : p a)
    {bs : List α} (hbs : ∀ b ∈ bs, p b) : bs.foldl v.join a = bs.foldl w.join a := by
  induction bs generalizing a with
  | nil => rfl
  | cons b bs ih =>
      obtain ⟨same, hab⟩ := hp a b ha (hbs b List.mem_cons_self)
      rw [List.foldl_cons, List.foldl_cons, same]
      exact ih hab fun c hc => hbs c (List.mem_cons_of_mem b hc)

/-- Two foldings with the same keys that join alike give the same result. -/
theorem gather_congr {v : Folding α κ} (hkey : ∀ a, v.key a = w.key a) {p : α -> Prop}
    (hp : ∀ a b, p a -> p b -> v.join a b = w.join a b ∧ p (w.join a b)) {as : List α}
    (h : ∀ a ∈ as, p a) : v.gather as = w.gather as := by
  have meets_eq : ∀ a b, v.meets a b = w.meets a b := by
    intro a b
    simp [meets, hkey]
  induction as using gather.induct w with
  | case1 => simp
  | case2 a as ih =>
      have has : ∀ b ∈ as, p b := fun b hb => h b (List.mem_cons_of_mem a hb)
      have mates_eq : v.mates a as = w.mates a as := List.filter_congr fun b _ => meets_eq a b
      have rest_eq : v.rest a as = w.rest a as :=
        List.filter_congr fun b _ => congrArg (!·) (meets_eq a b)
      have joined : (w.mates a as).foldl v.join a = (w.mates a as).foldl w.join a :=
        foldl_join_congr hp (h a List.mem_cons_self) fun b hb => has b (mem_mates.mp hb).1
      rw [gather_cons, gather_cons, mates_eq, rest_eq, joined,
        ih fun b hb => has b (mem_rest.mp hb).1]

/-- A change of elements that keeps keys and passes through joining may be made
before or after folding. -/
theorem gather_map {f : α -> α} (hkey : ∀ a, w.key (f a) = w.key a)
    (hjoin : ∀ a b, f (w.join a b) = w.join (f a) (f b)) (as : List α) :
    w.gather (as.map f) = (w.gather as).map f := by
  have meets_eq : ∀ a b, w.meets (f a) (f b) = w.meets a b := by
    intro a b
    simp [meets, hkey]
  induction as using gather.induct w with
  | case1 => simp
  | case2 a as ih =>
      have mates_eq : w.mates (f a) (as.map f) = (w.mates a as).map f := by
        rw [mates, List.filter_map]
        exact congrArg _ (List.filter_congr fun b _ => meets_eq a b)
      have rest_eq : w.rest (f a) (as.map f) = (w.rest a as).map f := by
        rw [rest, List.filter_map]
        exact congrArg _ (List.filter_congr fun b _ => congrArg (!·) (meets_eq a b))
      have joined : ((w.mates a as).map f).foldl w.join (f a) =
          f ((w.mates a as).foldl w.join a) := by
        rw [List.foldl_map]
        exact List.foldl_hom f fun b c => (hjoin b c).symm
      rw [List.map_cons, gather_cons, gather_cons, List.map_cons, mates_eq, rest_eq, joined, ih]

/-- No two elements of the result share a key. -/
theorem pairwise_gather (as : List α) :
    (w.gather as).Pairwise fun a b => w.meets a b = false := by
  induction as using gather.induct w with
  | case1 => simp
  | case2 a as ih =>
      rw [gather_cons]
      refine List.pairwise_cons.mpr ⟨?_, ih⟩
      have apart : ∀ b ∈ w.gather (w.rest a as), w.meets a b = false := by
        refine forall_mem_gather (p := fun b => w.meets a b = false) ?_ ?_
        · intro b c hb _
          rw [← hb]
          exact meets_later_congr (w.key_join b c) a
        · intro b hb
          exact (mem_rest.mp hb).2
      intro b hb
      rw [meets_congr (key_foldl_join a _) b]
      exact apart b hb

theorem gather_eq_self {as : List α} (h : as.Pairwise fun a b => w.meets a b = false) :
    w.gather as = as := by
  induction as with
  | nil => simp
  | cons a as ih =>
      obtain ⟨ha, has⟩ := List.pairwise_cons.mp h
      rw [gather_cons_of_forall_not_meets ha, ih has]

theorem gather_gather (as : List α) : w.gather (w.gather as) = w.gather as :=
  gather_eq_self (pairwise_gather as)

/-- Elements without a key are not touched. -/
theorem gather_of_forall_key_eq_none {as : List α} (h : ∀ a ∈ as, w.key a = none) :
    w.gather as = as := by
  apply gather_eq_self
  rw [List.pairwise_iff_forall_sublist]
  intro a b hab
  exact meets_eq_false_of_key_eq_none (h a (hab.subset List.mem_cons_self)) b

/-- The keys of the result are those of the list, each at its first place. -/
theorem filterMap_key_gather (as : List α) :
    (w.gather as).filterMap w.key = (as.filterMap w.key).eraseDups := by
  induction as using gather.induct w with
  | case1 => simp
  | case2 a as ih =>
      cases ha : w.key a with
      | none =>
          have all : w.rest a as = as := by simp [rest, meets_eq_false_of_key_eq_none ha]
          rw [all] at ih
          simp [gather_cons_of_key_eq_none ha, ha, ih]
      | some k =>
          have keys : (w.rest a as).filterMap w.key =
              (as.filterMap w.key).filter fun b => !b == k := by
            rw [rest, List.filter_filterMap, List.filterMap_filter]
            congr 1
            funext b
            cases hb : w.key b <;> simp [meets, ha, hb, Option.filter]
          have head : w.key ((w.mates a as).foldl w.join a) = some k := by
            rw [key_foldl_join, ha]
          rw [gather_cons, List.filterMap_cons_some head, List.filterMap_cons_some ha,
            List.eraseDups_cons, ih, keys]

/-- No key occurs twice in the result. -/
theorem nodup_filterMap_key_gather (as : List α) : ((w.gather as).filterMap w.key).Nodup := by
  refine List.Pairwise.filterMap w.key ?_ (pairwise_gather as)
  intro a b hab k hk l hl same
  subst same
  simp [meets, hk, hl] at hab

/-! ## Selecting from the result -/

/-- A test that tells elements with the same key not apart. -/
def Respects (w : Folding α κ) (p : α -> Bool) : Prop :=
  ∀ a b, w.meets a b = true -> p b = p a ∧ p (w.join a b) = p a

theorem Respects.foldl_join {p : α -> Bool} (hp : w.Respects p) (a : α) (as : List α) :
    p ((w.mates a as).foldl w.join a) = p a := by
  have inv : p ((w.mates a as).foldl w.join a) = p a ∧
      w.key ((w.mates a as).foldl w.join a) = w.key a := by
    refine List.foldlRecOn (motive := fun acc => p acc = p a ∧ w.key acc = w.key a) _ _
      ⟨rfl, rfl⟩ ?_
    rintro acc ⟨hacc, hkey⟩ b hb
    have meet : w.meets acc b = true := by
      rw [meets_congr hkey b]
      exact (mem_mates.mp hb).2
    exact ⟨(hp acc b meet).2.trans hacc, (w.key_join acc b).trans hkey⟩
  exact inv.1

/-- Such a test may be applied before or after folding. -/
theorem Respects.filter_gather {p : α -> Bool} (hp : w.Respects p) (as : List α) :
    (w.gather as).filter p = w.gather (as.filter p) := by
  induction as using gather.induct w with
  | case1 => simp
  | case2 a as ih =>
      by_cases ha : p a = true
      · -- The head stays, and so does everything that is joined into it.
        have mates_eq : w.mates a (as.filter p) = w.mates a as := by
          rw [mates, mates, List.filter_filter]
          apply List.filter_congr
          intro b _
          by_cases hb : w.meets a b = true
          · simp [hb, (hp a b hb).1, ha]
          · simp [hb]
        have rest_eq : w.rest a (as.filter p) = (w.rest a as).filter p := by
          simp [rest, List.filter_filter, Bool.and_comm]
        rw [List.filter_cons_of_pos ha, gather_cons, gather_cons, mates_eq, rest_eq, ← ih,
          List.filter_cons_of_pos (by rw [hp.foldl_join a as, ha])]
      · -- The head goes, with everything that is joined into it.
        have rest_eq : (w.rest a as).filter p = as.filter p := by
          rw [rest, List.filter_filter]
          apply List.filter_congr
          intro b _
          by_cases hb : w.meets a b = true
          · simp [hb, (hp a b hb).1, ha]
          · simp [hb]
        rw [List.filter_cons_of_neg ha, gather_cons,
          List.filter_cons_of_neg (by rw [hp.foldl_join a as]; exact ha), ih, rest_eq]

/-- A test that holds of all elements with a key, or of none of them. -/
theorem respects_of_forall_keyed {p : α -> Bool} (value : Bool)
    (hp : ∀ a, (w.key a).isSome -> p a = value) : w.Respects p := by
  intro a b hab
  have ha : (w.key a).isSome := isSome_of_meets hab
  have hb : (w.key b).isSome := by rwa [key_eq_of_meets hab]
  have hj : (w.key (w.join a b)).isSome := by rwa [w.key_join a b]
  rw [hp a ha, hp b hb, hp _ hj]
  exact ⟨rfl, rfl⟩

theorem respects_meets (c : α) : w.Respects (w.meets c) := by
  intro a b hab
  exact ⟨meets_later_congr (key_eq_of_meets hab) c, meets_later_congr (w.key_join a b) c⟩

theorem respects_not_meets (c : α) : w.Respects fun b => !w.meets c b := by
  intro a b hab
  obtain ⟨later, joined⟩ := respects_meets (w := w) c a b hab
  exact ⟨congrArg (!·) later, congrArg (!·) joined⟩

/-- What has no key is found in the result as in the list. -/
theorem filter_gather_of_forall_key_eq_none {p : α -> Bool}
    (hp : ∀ a, p a = true -> w.key a = none) (as : List α) :
    (w.gather as).filter p = as.filter p := by
  have keyed : ∀ a, (w.key a).isSome -> p a = false := by
    intro a ha
    by_cases h : p a = true
    · simp [hp a h] at ha
    · simpa using h
  rw [(respects_of_forall_keyed false keyed).filter_gather]
  apply gather_of_forall_key_eq_none
  intro a ha
  exact hp a (List.mem_filter.mp ha).2

/-- Of the elements with one key the result holds their join. -/
theorem filter_key_gather (k : κ) (as : List α) :
    (w.gather as).filter (fun a => w.key a = some k) =
      match as.filter (fun a => w.key a = some k) with
      | [] => []
      | b :: bs => [bs.foldl w.join b] := by
  have respects : w.Respects fun a => w.key a = some k := by
    intro a b hab
    simp [key_eq_of_meets hab, w.key_join]
  have keys : ∀ a ∈ as.filter (fun a => w.key a = some k), w.key a = some k := by
    intro a ha
    simpa using (List.mem_filter.mp ha).2
  rw [respects.filter_gather]
  generalize as.filter (fun a => w.key a = some k) = bs at keys
  cases bs with
  | nil => simp
  | cons b bs =>
      apply gather_eq_singleton
      intro c hc
      simp [meets, keys b List.mem_cons_self, keys c (List.mem_cons_of_mem b hc)]

theorem mates_gather (a : α) (as : List α) : w.mates a (w.gather as) = w.gather (w.mates a as) :=
  (respects_meets a).filter_gather as

theorem rest_gather (a : α) (as : List α) : w.rest a (w.gather as) = w.gather (w.rest a as) :=
  (respects_not_meets a).filter_gather as

/-! ## Folding in pieces -/

theorem mates_append (a : α) (as bs : List α) :
    w.mates a (as ++ bs) = w.mates a as ++ w.mates a bs :=
  List.filter_append as bs

theorem rest_append (a : α) (as bs : List α) :
    w.rest a (as ++ bs) = w.rest a as ++ w.rest a bs :=
  List.filter_append as bs

theorem mates_rest (a : α) (as : List α) : w.mates a (w.rest a as) = [] := by
  simp [mates, rest, List.filter_filter]

theorem rest_rest (a : α) (as : List α) : w.rest a (w.rest a as) = w.rest a as := by
  simp [rest, List.filter_filter]

/-- A list whose first part is folded already. -/
theorem gather_gather_append (as bs : List α) :
    w.gather (w.gather as ++ bs) = w.gather (as ++ bs) := by
  induction as using gather.induct w generalizing bs with
  | case1 => simp
  | case2 a as ih =>
      have hkey : w.key ((w.mates a as).foldl w.join a) = w.key a := key_foldl_join a _
      have mates_eq : ∀ cs, w.mates ((w.mates a as).foldl w.join a) cs = w.mates a cs := by
        intro cs
        exact List.filter_congr fun b _ => meets_congr hkey b
      have rest_eq : ∀ cs, w.rest ((w.mates a as).foldl w.join a) cs = w.rest a cs := by
        intro cs
        exact List.filter_congr fun b _ => congrArg (!·) (meets_congr hkey b)
      rw [gather_cons, List.cons_append, gather_cons, List.cons_append, gather_cons, mates_eq,
        rest_eq, mates_append, rest_append, mates_gather, rest_gather, mates_rest, rest_rest, ih,
        mates_append, rest_append, List.foldl_append]
      simp

/-- Joining three elements of one key gives the same from either side. -/
def Associative (w : Folding α κ) : Prop :=
  ∀ a b c, w.meets a b = true -> w.meets b c = true ->
    w.join (w.join a b) c = w.join a (w.join b c)

theorem foldl_join_join (hw : w.Associative) {a b : α} (hab : w.meets a b = true) (cs : List α)
    (hcs : ∀ c ∈ cs, w.meets b c = true) :
    cs.foldl w.join (w.join a b) = w.join a (cs.foldl w.join b) := by
  induction cs generalizing b with
  | nil => rfl
  | cons c cs ih =>
      have hbc : w.meets b c = true := hcs c List.mem_cons_self
      have hab' : w.meets a (w.join b c) = true := by
        rw [meets_later_congr (w.key_join b c) a, hab]
      have hcs' : ∀ d ∈ cs, w.meets (w.join b c) d = true := by
        intro d hd
        rw [meets_congr (w.key_join b c) d]
        exact hcs d (List.mem_cons_of_mem c hd)
      rw [List.foldl_cons, List.foldl_cons, hw a b c hab hbc, ih hab' hcs']

theorem foldl_join_gather (hw : w.Associative) {a : α} {bs : List α}
    (h : ∀ b ∈ bs, w.meets a b = true) :
    (w.gather bs).foldl w.join a = bs.foldl w.join a := by
  cases bs with
  | nil => simp
  | cons b bs =>
      have hab : w.meets a b = true := h b List.mem_cons_self
      have hbs : ∀ c ∈ bs, w.meets b c = true := by
        intro c hc
        rw [meets_congr (key_eq_of_meets hab) c]
        exact h c (List.mem_cons_of_mem b hc)
      rw [gather_eq_singleton hbs, List.foldl_cons, List.foldl_nil, List.foldl_cons,
        foldl_join_join hw hab bs hbs]

/-- A list whose second part is folded already. -/
theorem gather_append_gather (hw : w.Associative) (as bs : List α) :
    w.gather (as ++ w.gather bs) = w.gather (as ++ bs) := by
  induction as using gather.induct w generalizing bs with
  | case1 => exact gather_gather bs
  | case2 a as ih =>
      have hkey : w.key ((w.mates a as).foldl w.join a) = w.key a := key_foldl_join a _
      have joined : (w.gather (w.mates a bs)).foldl w.join ((w.mates a as).foldl w.join a) =
          (w.mates a bs).foldl w.join ((w.mates a as).foldl w.join a) := by
        apply foldl_join_gather hw
        intro b hb
        rw [meets_congr hkey b]
        exact (mem_mates.mp hb).2
      rw [List.cons_append, gather_cons, List.cons_append, gather_cons, mates_append, rest_append,
        mates_gather, rest_gather, List.foldl_append, joined, ih, mates_append, rest_append,
        List.foldl_append]

/-- Pieces that are folded already give the same as the whole list. -/
theorem gather_append (hw : w.Associative) (as bs : List α) :
    w.gather (w.gather as ++ w.gather bs) = w.gather (as ++ bs) := by
  rw [gather_gather_append, gather_append_gather hw]

/-! ## Two foldings of one list -/

/-- No element has a key of both foldings. -/
def Apart (v w : Folding α κ) : Prop :=
  ∀ a, v.key a = none ∨ w.key a = none

omit [DecidableEq κ] in
theorem Apart.symm {v : Folding α κ} (h : v.Apart w) : w.Apart v :=
  fun a => (h a).symm

omit [DecidableEq κ] in
theorem Apart.key_eq_none {v : Folding α κ} (h : v.Apart w) {a : α} (ha : (w.key a).isSome) :
    v.key a = none := by
  rcases h a with hv | hw
  · exact hv
  · simp [hw] at ha

theorem Apart.mates_gather {v : Folding α κ} (h : v.Apart w) (a : α) (as : List α) :
    v.mates a (w.gather as) = v.mates a as := by
  have respects : w.Respects (v.meets a) :=
    respects_of_forall_keyed false fun b hb =>
      meets_eq_false_of_later_eq_none (h.key_eq_none hb) a
  rw [mates, respects.filter_gather, mates]
  apply gather_of_forall_key_eq_none
  intro b hb
  have meet : v.meets a b = true := (mem_mates.mp hb).2
  apply h.symm.key_eq_none
  rw [key_eq_of_meets meet]
  exact isSome_of_meets meet

theorem Apart.rest_gather {v : Folding α κ} (h : v.Apart w) (a : α) (as : List α) :
    v.rest a (w.gather as) = w.gather (v.rest a as) := by
  have respects : w.Respects fun b => !v.meets a b :=
    respects_of_forall_keyed true fun b hb =>
      congrArg (!·) (meets_eq_false_of_later_eq_none (h.key_eq_none hb) a)
  exact respects.filter_gather as

/-- An element that the inner folding leaves alone takes what the outer one
joins into it. -/
theorem Apart.gather_gather_cons {v : Folding α κ} (h : v.Apart w) {a : α}
    (ha : w.key a = none) (as : List α) :
    v.gather (w.gather (a :: as)) =
      (v.mates a as).foldl v.join a :: v.gather (w.gather (v.rest a as)) := by
  rw [gather_cons_of_key_eq_none ha, gather_cons, h.mates_gather, h.rest_gather]

theorem gather_gather_cons_of_key_eq_none {v : Folding α κ} {a : α} (ha : v.key a = none)
    (h : v.Apart w) (as : List α) :
    v.gather (w.gather (a :: as)) =
      (w.mates a as).foldl w.join a :: v.gather (w.gather (w.rest a as)) := by
  have hv : v.key ((w.mates a as).foldl w.join a) = none := by
    cases hw : w.key a with
    | none =>
        have none : w.mates a as = [] := by
          simp [mates, meets_eq_false_of_key_eq_none hw]
        rw [none]
        exact ha
    | some k =>
        apply h.key_eq_none
        rw [key_foldl_join, hw]
        rfl
  rw [gather_cons, gather_cons_of_key_eq_none hv]

/-- Foldings that have no keys in common can be done in either order. -/
theorem Apart.gather_comm {v : Folding α κ} (h : v.Apart w) (as : List α) :
    v.gather (w.gather as) = w.gather (v.gather as) := by
  induction hn : as.length using Nat.strongRecOn generalizing as with
  | ind n ih =>
      cases as with
      | nil => simp
      | cons a as =>
          have shorter : ∀ u : Folding α κ, (u.rest a as).length < n := by
            intro u
            rw [← hn]
            exact Nat.lt_succ_of_le (List.length_filter_le _ _)
          rcases h a with hv | hw
          · rw [gather_gather_cons_of_key_eq_none hv h, h.symm.gather_gather_cons hv,
              ih _ (shorter w) _ rfl]
          · rw [h.gather_gather_cons hw, gather_gather_cons_of_key_eq_none hw h.symm,
              ih _ (shorter v) _ rfl]

end Folding

end Bindgen
