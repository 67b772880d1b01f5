import Bindgen.Proofs.Outputs
import Bindgen.Proofs.Reading.Declarations

/-! # What a run leaves on the disk

A pair of paths is converted in two stages: its bindings are generated, which
reads the disk and changes nothing, and then they are written. So a pair that
fails in the first stage leaves the disk as it found it, and as a run ends there,
so does the run. `Disk.WroteAt` says what the second stage does: it fills one
file and makes directories above it.
-/

namespace Bindgen

/-! ## Entries -/

namespace Disk

variable {d d' : Disk} {place other : Place} {entry : Entry}

/-- Every directory of the disk is one of the other. -/
def KeepsDirectories (d d' : Disk) : Prop :=
  ∀ place, d.lookup? place = some .directory -> d'.lookup? place = some .directory

/-- A path leads to the same place as long as no directory on the way is lost. -/
theorem KeepsDirectories.walk (h : d.KeepsDirectories d') {path : String} {start : Place}
    {names : List String} (found : d.walk path start names = .ok place) :
    d'.walk path start names = .ok place := by
  induction names generalizing start with
  | nil => exact found
  | cons name names ih =>
      rw [Disk.walk] at found ⊢
      split at found
      · cases found
      · cases found
      · rename_i directory
        rw [h start directory]
        dsimp only
        split at found
        · cases found
        · rename_i short
          rw [if_neg short]
          exact ih found

theorem KeepsDirectories.resolve (h : d.KeepsDirectories d') {p : Path}
    (found : d.resolve p = .ok place) : d'.resolve p = .ok place := by
  unfold Disk.resolve at found ⊢
  split at found
  · cases found
  · rename_i short
    rw [if_neg short]
    exact h.walk found

/-! ## Directories -/

/-- Nothing that was on the disk is lost or changed. What is new are directories,
at places that the names or the first of them lead to. -/
structure Extends (root : String) (names : List String) (d d' : Disk) : Prop where
  kept : ∀ place entry, d.lookup? place = some entry -> d'.lookup? place = some entry
  made : ∀ place entry, d.lookup? place = none -> d'.lookup? place = some entry ->
    entry = .directory ∧ ∃ leading, leading <+: names ∧ d'.resolve ⟨root, leading⟩ = .ok place

section

variable {root : String} {names : List String}

theorem Extends.keepsDirectories (h : Extends root names d d') : d.KeepsDirectories d' :=
  fun place directory => h.kept place .directory directory

theorem Extends.trans {shorter : List String} {d₁ d₂ d₃ : Disk} (h : Extends root shorter d₁ d₂)
    (within : shorter <+: names) (h' : Extends root names d₂ d₃) : Extends root names d₁ d₃ where
  kept place entry found := h'.kept place entry (h.kept place entry found)
  made place entry missing found := by
    cases middle : d₂.lookup? place with
    | none => exact h'.made place entry middle found
    | some between =>
        obtain ⟨rfl, leading, first, leads⟩ := h.made place between missing middle
        have same := h'.kept place .directory middle
        rw [found] at same
        exact ⟨Option.some.inj same, leading, first.trans within, h'.keepsDirectories.resolve leads⟩

end

/-! ## Files -/

/-- The path leads to a file with the content. -/
def FileAt (d : Disk) (p : Path) (content : List UInt8) : Prop :=
  ∃ place, d.resolve p = .ok place ∧ d.lookup? place = some (.file content)

theorem read_eq_ok_iff {p : Path} {content : List UInt8} :
    d.read p = .ok content ↔ d.FileAt p content := by
  unfold Disk.read
  constructor
  · intro read
    split at read
    · cases read
    · rename_i place leads
      split at read
      · cases read
      · cases read
      · rename_i found
        obtain rfl := Except.ok.inj read
        exact ⟨place, leads, found⟩
  · rintro ⟨place, leads, found⟩
    simp only [leads, found]

end Disk

section

variable (settings : Settings) (parse : List UInt8 -> Syntax.Node)

/-- Nothing can be written for the pair: its input leads to no file, or nothing is
generated for the source in it. -/
def Blocked (disk : Disk) (input output : Path) : Prop :=
  (∀ source, ¬ disk.FileAt input source) ∨
    ∃ source root e, disk.FileAt input source ∧ IsRootName settings output root ∧
      (generate settings input.text root (parse source)).outcome = .error e

variable {settings parse} {disk : Disk} {input output : Path}

theorem generateFrom_of_unread {e : DiskError} (unread : disk.read input = .error e) :
    (generateFrom settings parse disk input output).outcome = .error (.disk e) := by
  rw [generateFrom, unread]
  rfl

theorem generateFrom_of_read {source : List UInt8} (read : disk.read input = .ok source) :
    (generateFrom settings parse disk input output).outcome =
      ((generate settings input.text (settings.rootFor output) (parse source)).mapError
        RunError.failure).outcome := by
  rw [generateFrom, read]
  rfl

theorem Blocked.generateFrom (h : Blocked settings parse disk input output) :
    ∃ e, (generateFrom settings parse disk input output).outcome = .error e := by
  rcases h with unread | ⟨source, root, e, found, named, failed⟩
  · cases read : disk.read input with
    | error e => exact ⟨.disk e, generateFrom_of_unread read⟩
    | ok source => exact absurd (Disk.read_eq_ok_iff.mp read) (unread source)
  · obtain rfl := named.unique (isRootName_rootFor settings output)
    rw [generateFrom_of_read (Disk.read_eq_ok_iff.mpr found)]
    simp only [Traced.mapError, failed]
    exact ⟨.failure e, rfl⟩

/-- Nothing is touched before the bindings are complete. -/
theorem Blocked.convertFile (h : Blocked settings parse disk input output) :
    (convertFile settings parse disk input output).1 = disk ∧
      ∃ e, (convertFile settings parse disk input output).2.outcome = .error e := by
  obtain ⟨e, failed⟩ := h.generateFrom
  unfold Bindgen.convertFile
  generalize Bindgen.generateFrom settings parse disk input output = generated at failed
  obtain ⟨events, outcome⟩ := generated
  subst failed
  exact ⟨rfl, e, rfl⟩

section

variable {before : Progress}

end

end

section

variable (settings : Settings) (parse : List UInt8 -> Syntax.Node)

variable {settings parse} {disk : Disk} {input output : Path} {before later : List (Path × Path)}

end

end Bindgen
