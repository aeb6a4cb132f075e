-- SUMMARY: The places that a lookup visits, and that it depends on nothing else.
import WitnessLift.Proofs.Storage.Lookup

/-!
# What a lookup depends on

A lookup sees the places that its path passes and no others, so two trees that agree there yield the
same, down to the cause of a failure. What a successful lookup yields needs less: the directories,
and the entry at its end.
-/

namespace WitnessLift.Disk

variable {d d' : Disk} {here p : Place} {segment : List Char} {path : Path}
  {content : Text.Bytes}

/-! ## Trees that hang together -/

/-- The working directory is a directory, and directories stand in directories. -/
structure Rooted (d : Disk) : Prop where
  start : d.find? d.workingDirectory = some .directory
  above : ∀ p, d.find? p = some .directory → d.find? p.dropLast = some .directory

/-- Whether a tree hangs together is seen from its entries. -/
theorem rooted_of_entries (hstart : d.find? d.workingDirectory = some .directory)
    (habove : ∀ e ∈ d.entries, e.2 = .directory → d.find? e.1.dropLast = some .directory) :
    d.Rooted where
  start := hstart
  above p hp := by
    rw [find?] at hp
    split_ifs at hp with hroot
    · rw [hroot]
      rfl
    · obtain ⟨before, after, hentries, -⟩ := List.lookup_eq_some_iff.mp hp
      exact habove (p, .directory) (by simp [hentries]) rfl

namespace Rooted

theorem walk (h : d.Rooted) {segments : List (List Char)}
    (hhere : d.find? here = some .directory) (hwalk : d.walk here segments = .ok p) :
    d.find? p = some .directory := by
  induction segments generalizing here with
  | nil =>
    cases hwalk
    exact hhere
  | cons segment rest ih =>
    rw [walk_cons, Fault.bind_eq_ok_iff] at hwalk
    obtain ⟨there, hfirst, hrest⟩ := hwalk
    refine ih ?_ hrest
    rcases walk_singleton_eq_ok_iff.mp hfirst with ⟨-, rfl⟩ | ⟨-, rfl⟩ | ⟨-, -, -, -, hfound⟩
    · exact hhere
    · exact h.above _ hhere
    · exact hfound

theorem origin (h : d.Rooted) (path : Path) : d.find? (d.origin path) = some .directory := by
  rw [Disk.origin]
  split_ifs
  · rfl
  · exact h.start

/-- Where a path names a directory without its name, a directory stands there. -/
theorem find?_of_spot (h : d.Rooted) (hspot : d.spot path = .ok (.directory p)) :
    d.find? p = some .directory := by
  obtain ⟨-, ⟨-, hroot⟩ | ⟨before, last, parent, -, hwalk, hlast⟩⟩ := spot_eq_ok_iff.mp hspot
  · cases hroot
    rfl
  · have hparent := h.walk (h.origin path) hwalk
    rw [Spot.ofLast] at hlast
    split_ifs at hlast
    · cases hlast
      exact hparent
    · cases hlast
      exact h.above _ hparent

end Rooted

/-! ## Lookups that succeed -/

/-- What is opened is a directory without a name of its own, or what stands at the place that the
path names. -/
theorem openFile_eq_ok_iff :
    d.openFile path = .ok p ↔
      d.spot path = .ok (.directory p) ∨
        ∃ slash entry, d.Names path p slash ∧ d.find? p = some entry ∧
          (slash = true → entry = .directory) := by
  constructor
  · intro h
    obtain ⟨spot, hspot, h⟩ := Fault.bind_eq_ok_iff.mp h
    cases spot with
    | directory q =>
      cases h
      exact .inl hspot
    | name parent name slash =>
      obtain ⟨q, hq, h⟩ := Fault.bind_eq_ok_iff.mp h
      split at h
      · cases h
      · next content hfound =>
        split at h
        · cases h
        · next hslash =>
          cases h
          exact .inr ⟨slash, _, ⟨parent, name, hspot, hq⟩, hfound, fun htrue => absurd htrue hslash⟩
      · next hfound =>
        cases h
        exact .inr ⟨slash, _, ⟨parent, name, hspot, hq⟩, hfound, fun _ => rfl⟩
  · rintro (hspot | ⟨slash, entry, ⟨parent, name, hspot, hp⟩, hfound, hslash⟩)
    · simp [openFile, hspot, bind, Except.bind, pure, Except.pure]
    · cases entry with
      | directory => simp [openFile, hspot, hp, hfound, bind, Except.bind]
      | file content =>
        have hplain : slash = false := by
          cases slash with
          | false => rfl
          | true => cases hslash rfl
        simp [openFile, hspot, hp, hfound, hplain, bind, Except.bind]

theorem locate_of_openFile (h : d.openFile path = .ok p) : d.locate path = .ok p := by
  rcases openFile_eq_ok_iff.mp h with hspot | ⟨slash, entry, hnames, -⟩
  · rw [locate, hspot]
    rfl
  · exact hnames.locate_eq

/-- A file that is opened is one that the path names. -/
theorem Rooted.names_of_openFile (h : d.Rooted) (hopen : d.openFile path = .ok p)
    (hfile : d.find? p = some (.file content)) : d.Names path p false := by
  rcases openFile_eq_ok_iff.mp hopen with hspot | ⟨slash, entry, hnames, hfound, hslash⟩
  · rw [h.find?_of_spot hspot] at hfile
    cases hfile
  · cases slash with
    | false => exact hnames
    | true =>
      rw [hslash rfl, hfile] at hfound
      cases hfound

/-- What was opened is opened again, as long as the directories are the same and it is still
there. -/
theorem SameDirectories.openFile_eq_ok (h : SameDirectories d d') (hopen : d.openFile path = .ok p)
    (hkept : d'.find? p = d.find? p) : d'.openFile path = .ok p := by
  rw [openFile_eq_ok_iff] at hopen ⊢
  rcases hopen with hspot | ⟨slash, entry, hnames, hfound, hslash⟩
  · exact .inl (h.spot_eq_ok hspot)
  · exact .inr ⟨slash, entry, h.names hnames, hkept.trans hfound, hslash⟩

/-! ## Lookups as a whole -/

/-- The places that are looked at on the way along some names. -/
def passed (d : Disk) (here : Place) : List (List Char) → List Place
  | [] => []
  | segment :: rest =>
    (if segment = ['.'] ∨ segment = ['.', '.'] then [] else [here ++ [String.ofList segment]]) ++
      match d.walk here [segment] with
      | .ok there => passed d there rest
      | .error _ => []

/-- The places that a path passes through, and the one at which it ends. -/
def route (d : Disk) (path : Path) : List Place := d.passed (d.origin path) path.names

/-- Relative paths start in the same directory of two trees, and a path meets the same on its way in
both. -/
structure AgreeAlong (d d' : Disk) (path : Path) : Prop where
  start : d'.workingDirectory = d.workingDirectory
  route : ∀ p ∈ d.route path, d'.find? p = d.find? p

theorem AgreeAlong.refl (d : Disk) (path : Path) : AgreeAlong d d path := ⟨rfl, fun _ _ => rfl⟩

theorem passed_cons_of_walk {there : Place} (h : d.walk here [segment] = .ok there)
    (rest : List (List Char)) :
    d.passed here (segment :: rest) =
      (if segment = ['.'] ∨ segment = ['.', '.'] then [] else [here ++ [String.ofList segment]]) ++
        d.passed there rest := by
  rw [passed, h]

/-- The place of a name is looked at where the names before it lead. -/
theorem mem_passed_of_walk {before rest : List (List Char)} {parent : Place} {name : List Char}
    (h : d.walk here before = .ok parent) (hself : name ≠ ['.']) (habove : name ≠ ['.', '.']) :
    parent ++ [String.ofList name] ∈ d.passed here (before ++ name :: rest) := by
  induction before generalizing here with
  | nil =>
    cases h
    simp [passed, hself, habove]
  | cons segment before ih =>
    rw [walk_cons, Fault.bind_eq_ok_iff] at h
    obtain ⟨there, hfirst, hrest⟩ := h
    rw [List.cons_append, passed_cons_of_walk hfirst]
    exact List.mem_append_right _ (ih hrest)

theorem passed_subset_append (before rest : List (List Char)) :
    d.passed here before ⊆ d.passed here (before ++ rest) := by
  induction before generalizing here with
  | nil => exact List.nil_subset _
  | cons segment before ih =>
    rw [List.cons_append, passed, passed]
    cases d.walk here [segment] with
    | error cause => exact List.Subset.refl _
    | ok there =>
      exact List.append_subset.mpr
        ⟨List.subset_append_left _ _, List.subset_append_of_subset_right _ ih⟩

theorem walk_singleton_congr
    (h : segment ≠ ['.'] → segment ≠ ['.', '.'] →
      d'.find? (here ++ [String.ofList segment]) = d.find? (here ++ [String.ofList segment])) :
    d'.walk here [segment] = d.walk here [segment] := by
  simp only [walk]
  split_ifs with hself habove hlong
  · rfl
  · rfl
  · rfl
  · rw [h hself habove]

/-- A walk comes to the same end where both trees agree on all that is passed. -/
theorem walk_congr {segments : List (List Char)}
    (h : ∀ p ∈ d.passed here segments, d'.find? p = d.find? p) :
    d'.walk here segments = d.walk here segments := by
  induction segments generalizing here with
  | nil => rfl
  | cons segment rest ih =>
    rw [passed, List.forall_mem_append] at h
    have hfirst : d'.walk here [segment] = d.walk here [segment] :=
      walk_singleton_congr fun hself habove => h.1 _ (by simp [hself, habove])
    rw [walk_cons, walk_cons d, hfirst]
    cases hwalk : d.walk here [segment] with
    | error cause => rfl
    | ok there =>
      rw [hwalk] at h
      exact ih h.2

theorem spot_of_not_sound (h : ¬ Sound path) (d d' : Disk) : d'.spot path = d.spot path := by
  simp only [spot]
  by_cases hnul : '\x00' ∈ path.text.toList
  · rw [if_pos hnul, if_pos hnul]
  · by_cases hempty : path.text.toList = []
    · rw [if_neg hnul, if_neg hnul, if_pos hempty, if_pos hempty]
    · have hlong := Nat.not_le.mp fun hfits => h ⟨hnul, hempty, hfits⟩
      rw [if_neg hnul, if_neg hnul, if_neg hempty, if_neg hempty, if_pos hlong, if_pos hlong]

/-- The place that a path names is looked at. -/
theorem Names.mem_route {slash : Bool} (h : d.Names path p slash) : p ∈ d.route path := by
  obtain ⟨parent, name, hspot, hplace⟩ := h
  obtain ⟨-, ⟨-, hroot⟩ | ⟨before, last, parent', hnames, hwalk, hlast⟩⟩ := spot_eq_ok_iff.mp hspot
  · cases hroot
  · obtain ⟨hself, habove, rfl, rfl, -⟩ := ofLast_eq_name_iff.mp hlast.symm
    rw [(place_eq_ok_iff.mp hplace).2, route, hnames]
    exact mem_passed_of_walk hwalk hself habove

namespace AgreeAlong

theorem spot_eq (h : AgreeAlong d d' path) : d'.spot path = d.spot path := by
  have horigin : d'.origin path = d.origin path := by rw [origin, origin, h.start]
  have hwalk : d'.walk (d.origin path) path.names.dropLast =
      d.walk (d.origin path) path.names.dropLast := by
    refine walk_congr fun p hp => h.route p ?_
    rcases List.eq_nil_or_concat path.names with hnames | ⟨before, last, hnames⟩
    · rw [hnames] at hp
      cases hp
    · rw [List.concat_eq_append] at hnames
      rw [hnames, List.dropLast_concat] at hp
      rw [Disk.route, hnames]
      exact passed_subset_append _ _ hp
  by_cases hsound : Sound path
  · rw [spot_of_sound hsound, spot_of_sound hsound, horigin, hwalk]
  · exact spot_of_not_sound hsound d d'

/-- The entry at the place of a name is the same. -/
theorem find?_eq (h : AgreeAlong d d' path) {slash : Bool} (hnames : d.Names path p slash) :
    d'.find? p = d.find? p :=
  h.route p hnames.mem_route

theorem openFile_eq (h : AgreeAlong d d' path) : d'.openFile path = d.openFile path := by
  rw [openFile, openFile, h.spot_eq]
  cases hspot : d.spot path with
  | error cause => rfl
  | ok spot =>
    cases spot with
    | directory p => rfl
    | name parent name slash =>
      cases hplace : place parent name with
      | error cause => simp [hplace, bind, Except.bind]
      | ok p => simp only [hplace, bind, Except.bind, h.find?_eq ⟨parent, name, hspot, hplace⟩]

theorem creatable_eq (h : AgreeAlong d d' path) : d'.creatable path = d.creatable path := by
  rw [creatable, creatable, h.spot_eq]
  cases hspot : d.spot path with
  | error cause => rfl
  | ok spot =>
    cases spot with
    | directory p => rfl
    | name parent name slash =>
      cases hplace : place parent name with
      | error cause => simp [hplace, bind, Except.bind]
      | ok p => simp only [hplace, bind, Except.bind, h.find?_eq ⟨parent, name, hspot, hplace⟩]

end AgreeAlong

end WitnessLift.Disk
