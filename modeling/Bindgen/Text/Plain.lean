/-! # Plain text

Text for a place that knows no control sequences, such as those for colours. A
control sequence is an escape character, an opening square bracket, parameters,
intermediates and a final character; it is left out.
-/

namespace Bindgen.Text

def escapeChar : Char := '\x1b'

def isParameter (c : Char) : Bool :=
  '0' ≤ c && c ≤ '?'

/-- An intermediate of a control sequence, which stands behind the parameters. -/
def isIntermediate (c : Char) : Bool :=
  ' ' ≤ c && c ≤ '/'

def isFinal (c : Char) : Bool :=
  '@' ≤ c && c ≤ '~'

/-- The text behind a control sequence, whose escape character is taken off
already. -/
def behindControl? : List Char -> Option (List Char)
  | '[' :: cs =>
    match (cs.dropWhile isParameter).dropWhile isIntermediate with
    | c :: rest => if isFinal c then some rest else none
    | [] => none
  | _ => none

theorem length_behindControl? {cs rest : List Char} (h : behindControl? cs = some rest) :
    rest.length < cs.length := by
  unfold behindControl? at h
  split at h
  · rename_i inner
    have hparameters := (List.dropWhile_sublist (l := inner) isParameter).length_le
    have hintermediates :=
      (List.dropWhile_sublist (l := inner.dropWhile isParameter) isIntermediate).length_le
    split at h
    · rename_i hd
      split at h
      · cases h
        rw [hd] at hintermediates
        simp only [List.length_cons] at hintermediates ⊢
        omega
      · simp at h
    · simp at h
  · simp at h

def withoutControls (cs : List Char) : List Char :=
  match cs with
  | [] => []
  | c :: rest =>
    if c = escapeChar then
      match _h : behindControl? rest with
      | some behind => withoutControls behind
      | none => c :: withoutControls rest
    else c :: withoutControls rest
termination_by cs.length
decreasing_by
  · have := length_behindControl? _h
    simp only [List.length_cons]
    omega
  · simp
  · simp

/-- The text without its control sequences. -/
def plain (s : String) : String :=
  String.ofList (withoutControls s.toList)

end Bindgen.Text
