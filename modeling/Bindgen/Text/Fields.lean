/-! # Fields of a text

Cutting a text at every separator, and joining texts with a separator. A text
with `n` separators has `n + 1` fields, some of which may be empty.
-/

namespace Bindgen.Text

/-- The parts of a text between its separators. -/
def fields (isSeparator : Char -> Bool) : List Char -> List (List Char)
  | [] => [[]]
  | c :: cs =>
    if isSeparator c then [] :: fields isSeparator cs
    else
      match fields isSeparator cs with
      | [] => [[c]]
      | part :: parts => (c :: part) :: parts

def dotted (s : String) : List String :=
  (fields (· == '.') s.toList).map String.ofList

def join (separator : String) : List String -> String
  | [] => ""
  | [s] => s
  | s :: t :: rest => s ++ separator ++ join separator (t :: rest)

theorem fields_ne_nil (isSeparator : Char -> Bool) (cs : List Char) :
    fields isSeparator cs ≠ [] := by
  cases cs with
  | nil => simp [fields]
  | cons c cs =>
    simp only [fields]
    split
    · simp
    · split <;> simp

/-- No field holds a separator. -/
theorem not_isSeparator_of_mem_fields {isSeparator : Char -> Bool} {cs part : List Char} {c : Char}
    (hpart : part ∈ fields isSeparator cs) (hc : c ∈ part) : isSeparator c = false := by
  induction cs generalizing part with
  | nil => simp_all [fields]
  | cons d ds ih =>
    simp only [fields] at hpart
    split at hpart
    · rcases List.mem_cons.1 hpart with h | h
      · simp_all
      · exact ih h hc
    · split at hpart
      · simp_all
      · rename_i hd _ first rest hrest
        rcases List.mem_cons.1 hpart with h | h
        · subst h
          rcases List.mem_cons.1 hc with h | h
          · simpa [h] using hd
          · exact ih (by simp [hrest]) h
        · exact ih (by simp [hrest, h]) hc

end Bindgen.Text
