-- SUMMARY: Laws of path lookup and of the operations of a tree of files.
import Mathlib.Tactic.SplitIfs
import WitnessLift.Proofs.Fault
import WitnessLift.Storage.Disk

/-!
# Looking up paths

What a path leads to depends on nothing but the directories of a tree, so that files can come and go
without changing what any path names.
-/

namespace WitnessLift

/-- The names of a path, those that stand for directories above included. -/
def Path.names (path : Path) : List (List Char) := (segments path.text.toList).filter (· ≠ [])

namespace Disk

variable {d d' : Disk} {here p q : Place} {segment : List Char} {path : Path}

/-! ## What a path names -/

/-- What stands at a path. A file is not found under a path that ends in a separator. -/
def stat (d : Disk) (path : Path) : Except StorageError Entry := do
  match ← d.spot path with
  | .directory _ => return .directory
  | .name parent name slash =>
    match d.find? (← place parent name) with
    | none => .error .notFound
    | some .directory => .ok .directory
    | some (.file content) => if slash then .error .notDirectory else .ok (.file content)

/-- The place that a path names, whether anything stands there or not. -/
def locate (d : Disk) (path : Path) : Except StorageError Place := do
  match ← d.spot path with
  | .directory p => return p
  | .name parent name _ => place parent name

/-! ## Entries that come and go -/

theorem find?_erase (h : p ≠ []) (d : Disk) : (d.erase p).find? p = none := by
  rw [find?, if_neg h, erase, List.lookup_eq_none_iff]
  intro e he
  have hkept := (List.mem_filter.mp he).2
  rw [bne_iff_ne] at hkept ⊢
  exact hkept.symm

/-- Of what was put at a place nothing is left once it is removed from there. -/
theorem erase_put (d : Disk) (p : Place) (e : Entry) : (d.put p e).erase p = d.erase p := by
  simp [put, erase]

theorem put_put (d : Disk) (p : Place) (e e' : Entry) : (d.put p e).put p e' = d.put p e' := by
  rw [put, erase_put]
  rfl

theorem ne_nil_of_find? (h : d.find? p ≠ some .directory) : p ≠ [] := by
  rintro rfl
  exact h rfl

/-! ## Trees with the same directories -/

/-- Two trees have the same directories, and relative paths start in the same one. -/
structure SameDirectories (d d' : Disk) : Prop where
  start : d'.workingDirectory = d.workingDirectory
  directory : ∀ p, d'.find? p = some .directory ↔ d.find? p = some .directory

namespace SameDirectories

theorem refl (d : Disk) : SameDirectories d d := ⟨rfl, fun _ => Iff.rfl⟩

theorem symm (h : SameDirectories d d') : SameDirectories d' d :=
  ⟨h.start.symm, fun p => (h.directory p).symm⟩

theorem trans {d'' : Disk} (h : SameDirectories d d') (h' : SameDirectories d' d'') :
    SameDirectories d d'' :=
  ⟨h'.start.trans h.start, fun p => (h'.directory p).trans (h.directory p)⟩

/-- A file is written where no directory stands. -/
theorem put (h : d.find? p ≠ some .directory) (content : Text.Bytes) :
    SameDirectories d (d.put p (.file content)) where
  start := rfl
  directory q := by
    by_cases hq : q = p
    · subst hq
      simp [find?_put (ne_nil_of_find? h), h]
    · rw [find?_put_ne hq]

/-- A file is removed. -/
theorem erase (h : d.find? p ≠ some .directory) : SameDirectories d (d.erase p) where
  start := rfl
  directory q := by
    by_cases hq : q = p
    · subst hq
      simp [find?_erase (ne_nil_of_find? h), h]
    · rw [find?_erase_ne hq]

end SameDirectories

/-! ## Walking -/

/-- One name leads to where it stands for itself, to the directory above, or to a directory of this
name. -/
theorem walk_singleton_eq_ok_iff :
    d.walk here [segment] = .ok p ↔
      (segment = ['.'] ∧ p = here) ∨ (segment = ['.', '.'] ∧ p = here.dropLast) ∨
      (segment ≠ ['.'] ∧ segment ≠ ['.', '.'] ∧ Text.byteSize segment ≤ maxName ∧
        p = here ++ [String.ofList segment] ∧ d.find? p = some .directory) := by
  simp only [walk]
  split_ifs with hself habove hlong
  · simp [hself, eq_comm]
  · simp [habove, eq_comm]
  · simp [hself, habove, Nat.not_le.mpr hlong]
  · simp only [hself, habove, Nat.not_lt.mp hlong, ne_eq, not_false_eq_true, false_and, true_and,
      false_or]
    constructor
    · intro h
      split at h
      · cases h
      · cases h
      · next hfound =>
        cases h
        exact ⟨rfl, hfound⟩
    · rintro ⟨rfl, hfound⟩
      rw [hfound]

theorem walk_cons (d : Disk) (here : Place) (segment : List Char) (rest : List (List Char)) :
    d.walk here (segment :: rest) = d.walk here [segment] >>= fun p => d.walk p rest := by
  simp only [walk]
  split_ifs
  · rfl
  · rfl
  · rfl
  · rcases d.find? (here ++ [String.ofList segment]) with _ | _ | _ <;> rfl

theorem walk_append (d : Disk) (here : Place) (first rest : List (List Char)) :
    d.walk here (first ++ rest) = d.walk here first >>= fun p => d.walk p rest := by
  induction first generalizing here with
  | nil => rfl
  | cons segment first ih =>
    rw [List.cons_append, walk_cons, walk_cons d here segment first]
    cases d.walk here [segment] with
    | error cause => rfl
    | ok p => exact ih p

theorem SameDirectories.walk_eq_ok (h : SameDirectories d d') {segments : List (List Char)}
    (hwalk : d.walk here segments = .ok p) : d'.walk here segments = .ok p := by
  induction segments generalizing here with
  | nil => exact hwalk
  | cons segment rest ih =>
    rw [walk_cons, Fault.bind_eq_ok_iff] at hwalk ⊢
    obtain ⟨there, hfirst, hrest⟩ := hwalk
    refine ⟨there, ?_, ih hrest⟩
    rw [walk_singleton_eq_ok_iff] at hfirst ⊢
    rwa [h.directory]

/-! ## Spots -/

/-- What the last name of a path stands for, in the directory that the names before it lead to. -/
def Spot.ofLast (parent : Place) (last : List Char) (slash : Bool) : Spot :=
  if last = ['.'] then .directory parent
  else if last = ['.', '.'] then .directory parent.dropLast
  else .name parent last slash

theorem ofLast_eq_name_iff {parent parent' : Place} {last name : List Char} {slash slash' : Bool} :
    Spot.ofLast parent last slash = .name parent' name slash' ↔
      last ≠ ['.'] ∧ last ≠ ['.', '.'] ∧ parent = parent' ∧ last = name ∧ slash = slash' := by
  rw [Spot.ofLast]
  split_ifs with hself habove <;> simp [*]

/-- The directory in which a path starts. -/
def origin (d : Disk) (path : Path) : Place := if path.isAbsolute then [] else d.workingDirectory

/-- A text that can be a path. -/
def Sound (path : Path) : Prop :=
  '\x00' ∉ path.text.toList ∧ path.text.toList ≠ [] ∧ Text.byteSize path.text.toList ≤ maxPath

theorem spot_of_sound (h : Sound path) (d : Disk) :
    d.spot path =
      match path.names.getLast? with
      | none => .ok (.directory [])
      | some last =>
        (fun parent => .ofLast parent last (path.text.toList.getLast? = some '/')) <$>
          d.walk (d.origin path) path.names.dropLast := by
  obtain ⟨hnul, hempty, hlong⟩ := h
  simp only [spot, if_neg hnul, if_neg hempty, if_neg (Nat.not_lt.mpr hlong)]
  change (match path.names.getLast? with | none => _ | some last => _) = _
  cases path.names.getLast? with
  | none => rfl
  | some last =>
    change (d.walk (d.origin path) path.names.dropLast >>= fun parent => _) = _
    cases d.walk (d.origin path) path.names.dropLast with
    | error cause => rfl
    | ok parent =>
      change (if _ then _ else _) = Except.ok (Spot.ofLast _ _ _)
      rw [Spot.ofLast]
      split_ifs <;> rfl

theorem sound_of_spot {spot : Spot} (h : d.spot path = .ok spot) : Sound path := by
  simp only [Disk.spot] at h
  split at h
  · cases h
  · next hnul =>
    split at h
    · cases h
    · next hempty =>
      split at h
      · cases h
      · next hlong => exact ⟨hnul, hempty, Nat.not_lt.mp hlong⟩

/-- A path leads to the root, or to what its last name stands for where the names before it lead. -/
theorem spot_eq_ok_iff {spot : Spot} :
    d.spot path = .ok spot ↔
      Sound path ∧ ((path.names = [] ∧ spot = .directory []) ∨
        ∃ before last parent, path.names = before ++ [last] ∧
          d.walk (d.origin path) before = .ok parent ∧
          spot = .ofLast parent last (path.text.toList.getLast? = some '/')) := by
  constructor
  · intro h
    have hsound := sound_of_spot h
    refine ⟨hsound, ?_⟩
    rw [spot_of_sound hsound] at h
    rcases List.eq_nil_or_concat path.names with hnames | ⟨before, last, hnames⟩
    · rw [hnames] at h
      cases h
      exact .inl ⟨hnames, rfl⟩
    · rw [List.concat_eq_append] at hnames
      simp only [hnames, List.getLast?_concat, List.dropLast_concat] at h
      obtain ⟨parent, hwalk, rfl⟩ := Fault.map_eq_ok_iff.mp h
      exact .inr ⟨before, last, parent, hnames, hwalk, rfl⟩
  · rintro ⟨hsound, ⟨hnames, rfl⟩ | ⟨before, last, parent, hnames, hwalk, rfl⟩⟩
    · rw [spot_of_sound hsound, hnames]
      rfl
    · rw [spot_of_sound hsound]
      simp only [hnames, List.getLast?_concat, List.dropLast_concat, hwalk]
      rfl

/-- What a path names stays the same while no directory comes or goes. -/
theorem SameDirectories.spot_eq_ok (h : SameDirectories d d') {spot : Spot}
    (hspot : d.spot path = .ok spot) : d'.spot path = .ok spot := by
  rw [spot_eq_ok_iff] at hspot ⊢
  have horigin : d'.origin path = d.origin path := by rw [origin, origin, h.start]
  rw [horigin]
  obtain ⟨hsound, hroot | ⟨before, last, parent, hnames, hwalk, rfl⟩⟩ := hspot
  · exact ⟨hsound, .inl hroot⟩
  · exact ⟨hsound, .inr ⟨before, last, parent, hnames, h.walk_eq_ok hwalk, rfl⟩⟩

/-! ## What stands at a path -/

theorem place_eq_ok_iff {parent : Place} {name : List Char} :
    place parent name = .ok p ↔
      Text.byteSize name ≤ maxName ∧ p = parent ++ [String.ofList name] := by
  rw [place]
  split_ifs with hlong
  · simp [Nat.not_le.mpr hlong]
  · simp [Nat.not_lt.mp hlong, eq_comm]

/-- A path names a name in a directory, and that name can stand there. -/
def Names (d : Disk) (path : Path) (p : Place) (slash : Bool) : Prop :=
  ∃ parent name, d.spot path = .ok (.name parent name slash) ∧ place parent name = .ok p

variable {slash : Bool} {content : Text.Bytes} {cause : StorageError}

theorem Names.ne_nil (h : d.Names path p slash) : p ≠ [] := by
  obtain ⟨parent, name, -, hp⟩ := h
  rw [(place_eq_ok_iff.mp hp).2]
  simp

theorem Names.locate_eq (h : d.Names path p slash) : d.locate path = .ok p := by
  obtain ⟨parent, name, hspot, hp⟩ := h
  rw [locate, hspot]
  exact hp

theorem SameDirectories.locate_eq_ok (h : SameDirectories d d') (hp : d.locate path = .ok p) :
    d'.locate path = .ok p := by
  obtain ⟨spot, hspot, hp⟩ := Fault.bind_eq_ok_iff.mp hp
  exact Fault.bind_eq_ok_iff.mpr ⟨spot, h.spot_eq_ok hspot, hp⟩

theorem SameDirectories.names (h : SameDirectories d d') (hnames : d.Names path p slash) :
    d'.Names path p slash := by
  obtain ⟨parent, name, hspot, hp⟩ := hnames
  exact ⟨parent, name, h.spot_eq_ok hspot, hp⟩

theorem Names.stat_eq (h : d.Names path p slash) :
    d.stat path = match d.find? p with
      | none => .error .notFound
      | some .directory => .ok .directory
      | some (.file content) => if slash then .error .notDirectory else .ok (.file content) := by
  obtain ⟨parent, name, hspot, hp⟩ := h
  rw [stat, hspot]
  change (place parent name >>= fun p => _) = _
  rw [hp]
  rfl

theorem Names.stat_eq_notFound (h : d.Names path p slash) (hfound : d.find? p = none) :
    d.stat path = .error .notFound := by
  rw [h.stat_eq, hfound]

/-- What stands at a path is a directory that is no name in another one, or what stands at the place
of the name. -/
theorem stat_eq_ok_iff {entry : Entry} :
    d.stat path = .ok entry ↔
      (∃ p, d.spot path = .ok (.directory p) ∧ entry = .directory) ∨
        ∃ p slash, d.Names path p slash ∧ d.find? p = some entry ∧
          (slash = true → entry = .directory) := by
  constructor
  · intro h
    obtain ⟨spot, hspot, hentry⟩ := Fault.bind_eq_ok_iff.mp h
    cases spot with
    | directory p =>
      cases hentry
      exact .inl ⟨p, hspot, rfl⟩
    | name parent name slash =>
      obtain ⟨p, hp, hentry⟩ := Fault.bind_eq_ok_iff.mp hentry
      refine .inr ⟨p, slash, ⟨parent, name, hspot, hp⟩, ?_⟩
      split at hentry
      · cases hentry
      · next hfound =>
        cases hentry
        exact ⟨hfound, fun _ => rfl⟩
      · next content hfound =>
        split at hentry
        · cases hentry
        · next hslash =>
          cases hentry
          exact ⟨hfound, fun h => absurd h hslash⟩
  · rintro (⟨p, hspot, rfl⟩ | ⟨p, slash, hnames, hfound, hslash⟩)
    · rw [stat, hspot]
      rfl
    · rw [hnames.stat_eq, hfound]
      cases entry with
      | directory => rfl
      | file content =>
        have hplain : slash = false := by
          cases slash with
          | false => rfl
          | true => cases hslash rfl
        subst hplain
        rfl

theorem stat_eq_file_iff :
    d.stat path = .ok (.file content) ↔
      ∃ p, d.Names path p false ∧ d.find? p = some (.file content) := by
  rw [stat_eq_ok_iff]
  constructor
  · rintro (⟨p, -, h⟩ | ⟨p, slash, hnames, hfound, hslash⟩)
    · cases h
    · cases slash with
      | false => exact ⟨p, hnames, hfound⟩
      | true => cases hslash rfl
  · rintro ⟨p, hnames, hfound⟩
    exact .inr ⟨p, false, hnames, hfound, fun h => nomatch h⟩

theorem SameDirectories.stat_eq_directory (h : SameDirectories d d')
    (hstat : d.stat path = .ok .directory) : d'.stat path = .ok .directory := by
  rw [stat_eq_ok_iff] at hstat ⊢
  rcases hstat with ⟨p, hspot, -⟩ | ⟨p, slash, hnames, hfound, -⟩
  · exact .inl ⟨p, h.spot_eq_ok hspot, rfl⟩
  · exact .inr ⟨p, slash, h.names hnames, (h.directory p).mpr hfound, fun _ => rfl⟩

/-- Whether a directory stands at a path. -/
def isDirectory (d : Disk) (path : Path) : Bool :=
  match d.stat path with
  | .ok .directory => true
  | _ => false

theorem isDirectory_iff : d.isDirectory path ↔ d.stat path = .ok .directory := by
  rw [isDirectory]
  split
  · next h => simp [h]
  · next h => simpa using h

theorem SameDirectories.isDirectory_eq (h : SameDirectories d d') (path : Path) :
    d'.isDirectory path = d.isDirectory path := by
  rw [Bool.eq_iff_iff, isDirectory_iff, isDirectory_iff]
  exact ⟨h.symm.stat_eq_directory, h.stat_eq_directory⟩

/-! ## Operations -/

theorem openFile_of_stat (h : d.stat path = .ok (.file content)) :
    ∃ p, d.openFile path = .ok p ∧ d.locate path = .ok p ∧ d.find? p = some (.file content) := by
  obtain ⟨p, hnames, hfound⟩ := stat_eq_file_iff.mp h
  refine ⟨p, ?_, hnames.locate_eq, hfound⟩
  obtain ⟨parent, name, hspot, hp⟩ := hnames
  simp [openFile, hspot, hp, hfound, bind, Except.bind]

theorem creatable_eq_ok_iff :
    d.creatable path = .ok p ↔ d.Names path p false ∧ d.find? p ≠ some .directory := by
  constructor
  · intro h
    obtain ⟨spot, hspot, h⟩ := Fault.bind_eq_ok_iff.mp h
    cases spot with
    | directory p => cases h
    | name parent name slash =>
      cases slash with
      | true => cases h
      | false =>
        obtain ⟨q, hq, h⟩ := Fault.bind_eq_ok_iff.mp h
        split at h
        · cases h
        · next hfree =>
          cases h
          exact ⟨⟨parent, name, hspot, hq⟩, hfree⟩
  · rintro ⟨⟨parent, name, hspot, hp⟩, hfree⟩
    simp [creatable, hspot, hp, hfree, bind, Except.bind, pure, Except.pure]

theorem SameDirectories.creatable_eq_ok (h : SameDirectories d d') (hp : d.creatable path = .ok p) :
    d'.creatable path = .ok p := by
  obtain ⟨hnames, hfree⟩ := creatable_eq_ok_iff.mp hp
  exact creatable_eq_ok_iff.mpr ⟨h.names hnames, fun hfound => hfree ((h.directory p).mp hfound)⟩

/-- Only a file can be removed, from the place where it stands. -/
theorem removable_eq (d : Disk) (path : Path) :
    d.removable path = match d.stat path with
      | .ok (.file _) => d.locate path
      | .ok .directory => .error .isDirectory
      | .error cause => .error cause := by
  simp only [removable, stat, locate, bind, Except.bind, pure, Except.pure]
  rcases d.spot path with cause | _ | ⟨parent, name, slash⟩
  · rfl
  · rfl
  · dsimp only
    rcases place parent name with cause | p
    · rfl
    · dsimp only
      rcases d.find? p with _ | _ | _
      · rfl
      · cases slash <;> rfl
      · rfl

theorem removable_eq_ok_iff :
    d.removable path = .ok p ↔
      d.Names path p false ∧ ∃ content, d.find? p = some (.file content) := by
  rw [removable_eq]
  constructor
  · intro h
    split at h
    · next content hstat =>
      obtain ⟨q, hnames, hfound⟩ := stat_eq_file_iff.mp hstat
      rw [hnames.locate_eq] at h
      cases h
      exact ⟨hnames, content, hfound⟩
    · cases h
    · cases h
  · rintro ⟨hnames, content, hfound⟩
    rw [stat_eq_file_iff.mpr ⟨p, hnames, hfound⟩]
    exact hnames.locate_eq

/-- A file gets a new path where no directory stands, and the content goes with it. -/
theorem rename_eq_ok_iff {source target : Path} :
    d.rename source target = .ok d' ↔
      ∃ p p' content, d.Names source p false ∧ d.find? p = some (.file content) ∧
        d.Names target p' false ∧ d.find? p' ≠ some .directory ∧
        d' = (d.erase p).put p' (.file content) := by
  constructor
  · intro h
    obtain ⟨spot, hspot, h⟩ := Fault.bind_eq_ok_iff.mp h
    obtain ⟨spot', hspot', h⟩ := Fault.bind_eq_ok_iff.mp h
    rcases spot with _ | ⟨parent, name, slash⟩
    · cases h
    · rcases spot' with _ | ⟨parent', name', slash'⟩
      · cases h
      · obtain ⟨p, hp, h⟩ := Fault.bind_eq_ok_iff.mp h
        split at h
        · cases h
        · cases h
        · next content hfile =>
          obtain ⟨p', hp', hafter⟩ := Fault.bind_eq_ok_iff.mp h
          split at hafter
          · cases hafter
          · next hslash =>
            obtain ⟨rfl, rfl⟩ : slash = false ∧ slash' = false := by simpa using hslash
            split at hafter
            · cases hafter
            · next hfree =>
              cases hafter
              exact ⟨p, p', content, ⟨parent, name, hspot, hp⟩, hfile,
                ⟨parent', name', hspot', hp'⟩, hfree, rfl⟩
  · rintro ⟨p, p', content, ⟨parent, name, hspot, hp⟩, hfile, ⟨parent', name', hspot', hp'⟩,
      hfree, rfl⟩
    simp [rename, hspot, hspot', hp, hp', hfile, hfree, bind, Except.bind, pure, Except.pure]

/-- Nothing takes the place of a directory. -/
theorem rename_of_stat_directory {source target : Path} (h : d.stat target = .ok .directory) :
    ∃ cause, d.rename source target = .error cause := by
  cases hresult : d.rename source target with
  | error cause => exact ⟨cause, rfl⟩
  | ok after =>
    obtain ⟨-, p, -, -, -, htarget, hfree, -⟩ := rename_eq_ok_iff.mp hresult
    rw [htarget.stat_eq] at h
    split at h
    · cases h
    · next hfound => exact absurd hfound hfree
    · cases h

/-! ## Files that come -/

theorem sameDirectories_put (h : d.creatable path = .ok p) (content : Text.Bytes) :
    SameDirectories d (d.put p (.file content)) :=
  .put (creatable_eq_ok_iff.mp h).2 content

/-- A file that is created and written stands where it was created. -/
theorem stat_put (h : d.creatable path = .ok p) (content : Text.Bytes) :
    (d.put p (.file content)).stat path = .ok (.file content) := by
  have hnames := (creatable_eq_ok_iff.mp h).1
  exact stat_eq_file_iff.mpr
    ⟨p, (sameDirectories_put h content).names hnames, find?_put hnames.ne_nil _ _⟩

/-- A file that is created can be taken away again. -/
theorem removable_put (h : d.creatable path = .ok p) (content : Text.Bytes) :
    (d.put p (.file content)).removable path = .ok p := by
  have hnames := (creatable_eq_ok_iff.mp h).1
  exact removable_eq_ok_iff.mpr ⟨(sameDirectories_put h content).names hnames, content,
    find?_put hnames.ne_nil _ _⟩

/-! ## Files that are gone -/

/-- No file stands at a path. -/
def Vacant (d : Disk) (path : Path) : Prop := ∀ content, d.stat path ≠ .ok (.file content)

/-- The tree without the file at a path. -/
def discard (d : Disk) (path : Path) : Disk :=
  match d.removable path with
  | .ok p => d.erase p
  | .error _ => d

/-- Either a file is taken from the place that the path names, or there is none. -/
theorem discard_cases (d : Disk) (path : Path) :
    (∃ p content, d.Names path p false ∧ d.find? p = some (.file content) ∧
        d.discard path = d.erase p) ∨
      (d.Vacant path ∧ d.discard path = d) := by
  rw [discard]
  cases h : d.removable path with
  | ok p =>
    obtain ⟨hnames, content, hfound⟩ := removable_eq_ok_iff.mp h
    exact .inl ⟨p, content, hnames, hfound, rfl⟩
  | error cause =>
    refine .inr ⟨fun content hstat => ?_, rfl⟩
    obtain ⟨p, hnames, hfound⟩ := stat_eq_file_iff.mp hstat
    rw [removable_eq_ok_iff.mpr ⟨hnames, content, hfound⟩] at h
    cases h

theorem sameDirectories_discard (d : Disk) (path : Path) : SameDirectories d (d.discard path) := by
  rcases d.discard_cases path with ⟨p, content, -, hfound, h⟩ | ⟨-, h⟩
  · rw [h]
    exact .erase (by simp [hfound])
  · rw [h]
    exact .refl d

theorem discard_put (h : d.creatable path = .ok p) (content : Text.Bytes) :
    (d.put p (.file content)).discard path = d.erase p := by
  rw [discard, removable_put h]
  exact erase_put d p _

theorem find?_discard_ne (h : d.locate path ≠ .ok p) : (d.discard path).find? p = d.find? p := by
  rcases d.discard_cases path with ⟨q, content, hnames, -, hdiscard⟩ | ⟨-, hdiscard⟩
  · rw [hdiscard, find?_erase_ne]
    rintro rfl
    exact h hnames.locate_eq
  · rw [hdiscard]

theorem find?_discard_of_none (h : d.find? p = none) (path : Path) :
    (d.discard path).find? p = none := by
  rcases d.discard_cases path with ⟨q, content, hnames, -, hdiscard⟩ | ⟨-, hdiscard⟩
  · rw [hdiscard]
    by_cases hp : p = q
    · rw [hp, find?_erase hnames.ne_nil]
    · rwa [find?_erase_ne hp]
  · rwa [hdiscard]

theorem vacant_discard (d : Disk) (path : Path) : (d.discard path).Vacant path := by
  rcases d.discard_cases path with ⟨p, content, hnames, hfound, h⟩ | ⟨hvacant, h⟩
  · intro content' hstat
    have hsame := sameDirectories_discard d path
    rw [(hsame.names hnames).stat_eq, h, find?_erase hnames.ne_nil] at hstat
    cases hstat
  · rwa [h]

end Disk

end WitnessLift
