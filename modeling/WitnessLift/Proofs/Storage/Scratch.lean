-- SUMMARY: What a path names whose scratch file can be created, and what may change there.
import WitnessLift.Proofs.Storage.Lookup

/-!
# Beside a path

Where a file can be written beside a path, the path itself names a directory, or a name in the same
directory. So the file can be moved there or nothing can, and either way it can be removed again.
-/

namespace WitnessLift

/-! ## The last name of a path -/

namespace Path

variable {path : Path} {s t : List Char}

theorem segments_eq_splitOn (s : List Char) : segments s = s.splitOn '/' := by
  induction s with
  | nil => rfl
  | cons c s ih =>
    have hcons : (c :: s).splitOn '/' =
        if (c == '/') = true then [] :: s.splitOn '/'
        else (s.splitOn '/').modifyHead (List.cons c) :=
      List.splitOnP_cons_eq_if_modifyHead c s
    obtain ⟨piece, pieces, hpieces⟩ := List.exists_cons_of_ne_nil (List.splitOn_ne_nil '/' s)
    rw [segments, ih, hcons, hpieces]
    simp only [beq_iff_eq]
    rfl

theorem segments_eq_singleton (h : '/' ∉ s) : segments s = [s] := by
  rw [segments_eq_splitOn, List.splitOn_eq_singleton h]

/-- A text behind which a new piece begins. -/
def Opens (before : List Char) : Prop := before = [] ∨ before.getLast? = some '/'

/-- A text is cut before its last piece. -/
theorem exists_opens (s : List Char) :
    ∃ before last, s = before ++ last ∧ Opens before ∧ '/' ∉ last := by
  by_cases h : '/' ∈ s
  · obtain ⟨last, before, hreverse, hlast⟩ := List.eq_append_cons_of_mem (List.mem_reverse.mpr h)
    have htext : s = (before.reverse ++ ['/']) ++ last.reverse := by
      rw [← List.reverse_reverse s, hreverse]
      simp
    exact ⟨_, last.reverse, htext, .inr List.getLast?_concat, by simpa using hlast⟩
  · exact ⟨[], s, rfl, .inl rfl, h⟩

/-- What stands where a new piece begins is the last piece. -/
theorem Opens.exists_segments {before : List Char} (h : Opens before) :
    ∃ pieces, ∀ t, '/' ∉ t → segments (before ++ t) = pieces ++ [t] := by
  rcases h with rfl | h
  · exact ⟨[], fun t ht => segments_eq_singleton ht⟩
  · obtain ⟨start, rfl⟩ := List.getLast?_eq_some_iff.mp h
    refine ⟨start.splitOn '/', fun t ht => ?_⟩
    rw [segments_eq_splitOn, List.append_assoc, List.singleton_append,
      List.splitOn_append_cons_self, List.splitOn_eq_singleton ht]

/-- What a path has at its end when it is the path of a scratch file. -/
def scratchSuffix : List Char := ".tmp".toList

theorem toList_scratch (path : Path) :
    path.scratch.text.toList = path.text.toList ++ scratchSuffix := by
  simp [scratch, withExtension, scratchSuffix]

/-- A path and the path of its scratch file have the same names before the last piece. -/
theorem exists_names_eq (path : Path) :
    ∃ before last, path.scratch.names = before ++ [last ++ scratchSuffix] ∧
      path.names = before ++ (if last = [] then [] else [last]) ∧
      (last ≠ [] → path.text.toList.getLast? ≠ some '/') := by
  obtain ⟨start, last, htext, hopens, hlast⟩ := exists_opens path.text.toList
  obtain ⟨pieces, hpieces⟩ := hopens.exists_segments
  have hsuffix : '/' ∉ last ++ scratchSuffix := by
    simpa [hlast] using (by decide : '/' ∉ scratchSuffix)
  have hne : last ++ scratchSuffix ≠ [] := by
    simpa using fun _ => (by decide : scratchSuffix ≠ [])
  refine ⟨pieces.filter (· ≠ []), last, ?_, ?_, ?_⟩
  · rw [names, toList_scratch, htext, List.append_assoc, hpieces _ hsuffix, List.filter_append]
    simp [hne]
  · rw [names, htext, hpieces _ hlast, List.filter_append]
    split_ifs with hempty <;> simp [hempty]
  · intro hsome hslash
    obtain ⟨init, c, rfl⟩ := List.eq_nil_or_concat last |>.resolve_left hsome
    rw [htext, List.concat_eq_append, ← List.append_assoc, List.getLast?_concat] at hslash
    obtain rfl := Option.some.inj hslash
    exact hlast (by simp)

end Path

namespace Disk

open WitnessLift.Path

variable {d d' : Disk} {here p q : Place} {target : Path}

theorem sound_of_scratch (h : Sound target.scratch) (hne : target.text ≠ "") : Sound target := by
  obtain ⟨hnul, -, hlong⟩ := h
  rw [toList_scratch] at hnul hlong
  rw [Text.byteSize_append] at hlong
  refine ⟨fun hmem => hnul (List.mem_append_left _ hmem), by simpa using hne, ?_⟩
  exact Nat.le_trans (Nat.le_add_right _ _) hlong

theorem origin_scratch (d : Disk) (hne : target.text ≠ "") :
    d.origin target.scratch = d.origin target := by
  have hhead : target.scratch.isAbsolute = target.isAbsolute := by
    obtain ⟨c, rest, htext⟩ := List.exists_cons_of_ne_nil
      (show target.text.toList ≠ [] by simpa using hne)
    rw [isAbsolute, isAbsolute, toList_scratch, htext]
    rfl
  rw [origin, origin, hhead]

theorem stat_of_spot_directory (h : d.spot target = .ok (.directory p)) :
    d.stat target = .ok .directory :=
  stat_eq_ok_iff.mpr (.inl ⟨p, h, rfl⟩)

/-- A path that can be walked to its end names a directory, whatever its last name stands for. -/
theorem stat_of_walk (hsound : Sound target)
    (hwalk : d.walk (d.origin target) target.names = .ok p) : d.stat target = .ok .directory := by
  rcases List.eq_nil_or_concat target.names with hnames | ⟨before, last, hnames⟩
  · exact stat_of_spot_directory (spot_eq_ok_iff.mpr ⟨hsound, .inl ⟨hnames, rfl⟩⟩)
  · rw [List.concat_eq_append] at hnames
    rw [hnames, walk_append, Fault.bind_eq_ok_iff] at hwalk
    obtain ⟨parent, hbefore, hlast⟩ := hwalk
    have hspot := spot_eq_ok_iff.mpr ⟨hsound, .inr ⟨before, last, parent, hnames, hbefore, rfl⟩⟩
    rcases walk_singleton_eq_ok_iff.mp hlast with
      ⟨rfl, rfl⟩ | ⟨rfl, rfl⟩ | ⟨hself, habove, hshort, hp, hfound⟩
    · exact stat_of_spot_directory hspot
    · exact stat_of_spot_directory hspot
    · rw [Spot.ofLast, if_neg hself, if_neg habove] at hspot
      have hnamed : d.Names target p _ := ⟨parent, last, hspot, place_eq_ok_iff.mpr ⟨hshort, hp⟩⟩
      rw [hnamed.stat_eq, hfound]

/-- A last name without a separator behind it stands for a directory, or for itself. -/
theorem stat_or_names_of_ofLast {parent : Place} {last : List Char}
    (hspot : d.spot target = .ok (.ofLast parent last false)) (hfits : Text.byteSize last ≤ maxName) :
    d.stat target = .ok .directory ∨ d.Names target (parent ++ [String.ofList last]) false := by
  rw [Spot.ofLast] at hspot
  split_ifs at hspot
  · exact .inl (stat_of_spot_directory hspot)
  · exact .inl (stat_of_spot_directory hspot)
  · exact .inr ⟨parent, last, hspot, place_eq_ok_iff.mpr ⟨hfits, rfl⟩⟩

/-- The last name on the path of a scratch file stands for itself. -/
theorem ofLast_scratch (parent : Place) (last : List Char) (slash : Bool) :
    Spot.ofLast parent (last ++ scratchSuffix) slash =
      .name parent (last ++ scratchSuffix) slash := by
  have hlong : ∀ t : List Char, t.length < 4 → last ++ scratchSuffix ≠ t := by
    rintro t ht rfl
    rw [List.length_append, show scratchSuffix.length = 4 from rfl] at ht
    omega
  rw [Spot.ofLast, if_neg (hlong _ (by decide)), if_neg (hlong _ (by decide))]

/-- Where a scratch file can be created for a path, the names before the last piece of the path lead
to a directory, and the scratch file belongs there. -/
theorem exists_walk_of_creatable (hne : target.text ≠ "")
    (h : d.creatable target.scratch = .ok q) :
    ∃ before last parent, Sound target ∧ d.walk (d.origin target) before = .ok parent ∧
      target.names = before ++ (if last = [] then [] else [last]) ∧
      (last ≠ [] → target.text.toList.getLast? ≠ some '/') ∧ Text.byteSize last ≤ maxName ∧
      q = parent ++ [String.ofList (last ++ scratchSuffix)] := by
  obtain ⟨⟨parent, name, hspot, hq⟩, -⟩ := creatable_eq_ok_iff.mp h
  obtain ⟨before, last, hscratch, htarget, hslash⟩ := exists_names_eq target
  obtain ⟨hsound, ⟨hnames, -⟩ | ⟨before', last', there, hnames, hwalk, hlast⟩⟩ :=
    spot_eq_ok_iff.mp hspot
  · rw [hscratch] at hnames
    simp at hnames
  · rw [hscratch] at hnames
    obtain ⟨rfl, hsame⟩ := List.append_inj' hnames rfl
    obtain rfl := (List.cons.inj hsame).1
    rw [ofLast_scratch] at hlast
    obtain ⟨rfl, rfl, -⟩ := Spot.name.inj hlast
    obtain ⟨hshort, rfl⟩ := place_eq_ok_iff.mp hq
    rw [Text.byteSize_append] at hshort
    rw [origin_scratch d hne] at hwalk
    exact ⟨before, last, parent, sound_of_scratch hsound hne, hwalk, htarget, hslash,
      Nat.le_trans (Nat.le_add_right _ _) hshort, rfl⟩

/-- Where a scratch file can be created for a path, the path names a directory, or another name in
the directory of the scratch file. -/
theorem stat_or_names_of_creatable (hne : target.text ≠ "")
    (h : d.creatable target.scratch = .ok q) :
    d.stat target = .ok .directory ∨
      ∃ p, d.Names target p false ∧ p ≠ q ∧ d.find? p ≠ some .directory := by
  obtain ⟨before, last, parent, hsound, hwalk, hnames, hslash, hfits, rfl⟩ :=
    exists_walk_of_creatable hne h
  by_cases hempty : last = []
  · -- The path ends in a separator, and all of its names are on the way to the scratch file.
    rw [if_pos hempty, List.append_nil] at hnames
    exact .inl (stat_of_walk hsound (hnames ▸ hwalk))
  · rw [if_neg hempty] at hnames
    have hspot := spot_eq_ok_iff.mpr ⟨hsound, .inr ⟨before, last, parent, hnames, hwalk, rfl⟩⟩
    rw [decide_eq_false (hslash hempty)] at hspot
    rcases stat_or_names_of_ofLast hspot hfits with hdirectory | hnamed
    · exact .inl hdirectory
    · by_cases hfound : d.find? (parent ++ [String.ofList last]) = some .directory
      · exact .inl (by rw [hnamed.stat_eq, hfound])
      · refine .inr ⟨_, hnamed, fun hsame => ?_, hfound⟩
        have hname := List.singleton_inj.mp (List.append_cancel_left hsame)
        have hlength := congrArg List.length (String.ofList_injective hname)
        simp [scratchSuffix] at hlength

/-! ## From a scratch file to its target -/

/-- Nothing changes but files, at a path or at the path of its scratch file. -/
structure Confined (d d' : Disk) (target : Path) : Prop where
  directories : SameDirectories d d'
  elsewhere : ∀ p, d.locate target ≠ .ok p → d.locate target.scratch ≠ .ok p →
    d'.find? p = d.find? p

variable {content : Text.Bytes} {cause : StorageError}

theorem stat_of_empty (h : target.text = "") (d : Disk) : d.stat target = .error .notFound := by
  simp [stat, spot, h, bind, Except.bind]

/-- Where a scratch file can be created for a path, only absence keeps anyone from the path. -/
theorem eq_notFound_of_creatable (h : d.creatable target.scratch = .ok q)
    (hstat : d.stat target = .error cause) : cause = .notFound := by
  by_cases hne : target.text = ""
  · rw [stat_of_empty hne] at hstat
    cases hstat
    rfl
  · rcases stat_or_names_of_creatable hne h with hdirectory | ⟨p, hnames, -, hfree⟩
    · rw [hdirectory] at hstat
      cases hstat
    · rw [hnames.stat_eq] at hstat
      split at hstat
      · cases hstat
        rfl
      · cases hstat
      · cases hstat

/-- A scratch file is moved into place, or a directory is in its way. -/
theorem rename_scratch (hne : target.text ≠ "") (h : d.creatable target.scratch = .ok q)
    (content : Text.Bytes) :
    d.stat target = .ok .directory ∨
      ∃ p, d.Names target p false ∧ p ≠ q ∧ d.find? p ≠ some .directory ∧
        (d.put q (.file content)).rename target.scratch target =
          .ok ((d.erase q).put p (.file content)) := by
  rcases stat_or_names_of_creatable hne h with hdirectory | ⟨p, hnames, hother, hfree⟩
  · exact .inl hdirectory
  · have hsame := sameDirectories_put h content
    have hscratch := (creatable_eq_ok_iff.mp h).1
    refine .inr ⟨p, hnames, hother, hfree, rename_eq_ok_iff.mpr ⟨q, p, content,
      hsame.names hscratch, find?_put hscratch.ne_nil _ _, hsame.names hnames, ?_, ?_⟩⟩
    · exact fun hfound => hfree ((hsame.directory p).mp hfound)
    · rw [erase_put]

/-- Where a scratch file cannot be moved to, there is no file. -/
theorem vacant_of_rename_error (h : d.creatable target.scratch = .ok q)
    (hrename : (d.put q (.file content)).rename target.scratch target = .error cause) :
    (d.put q (.file content)).Vacant target := by
  intro content' hstat
  by_cases hne : target.text = ""
  · rw [stat_of_empty hne] at hstat
    cases hstat
  · rcases rename_scratch hne h content with hdirectory | ⟨p, -, -, -, hmoved⟩
    · rw [(sameDirectories_put h content).stat_eq_directory hdirectory] at hstat
      cases hstat
    · rw [hmoved] at hrename
      cases hrename

/-! ## What changes -/

theorem confined_put (h : d.creatable target.scratch = .ok q) (content : Text.Bytes) :
    Confined d (d.put q (.file content)) target where
  directories := sameDirectories_put h content
  elsewhere p _ hscratch := by
    rw [find?_put_ne]
    rintro rfl
    exact hscratch (creatable_eq_ok_iff.mp h).1.locate_eq

theorem sameDirectories_erase (h : d.creatable target.scratch = .ok q) :
    SameDirectories d (d.erase q) :=
  .erase (creatable_eq_ok_iff.mp h).2

theorem find?_erase_scratch (h : d.creatable target.scratch = .ok q)
    (hp : d.locate target.scratch ≠ .ok p) : (d.erase q).find? p = d.find? p := by
  rw [find?_erase_ne]
  rintro rfl
  exact hp (creatable_eq_ok_iff.mp h).1.locate_eq

/-- The scratch file stands at the target. -/
theorem confined_rename (h : d.creatable target.scratch = .ok q) (hp : d.Names target p false)
    (hother : p ≠ q) (hfree : d.find? p ≠ some .directory) (content : Text.Bytes) :
    Confined d ((d.erase q).put p (.file content)) target where
  directories := (sameDirectories_erase h).trans (.put (by rwa [find?_erase_ne hother]) content)
  elsewhere p' htarget hscratch := by
    rw [find?_put_ne, find?_erase_scratch h hscratch]
    rintro rfl
    exact htarget hp.locate_eq

/-- The scratch file is gone, and the file at the target as well. -/
theorem confined_discard (h : d.creatable target.scratch = .ok q) :
    Confined d ((d.erase q).discard target) target where
  directories := (sameDirectories_erase h).trans (sameDirectories_discard _ target)
  elsewhere p htarget hscratch := by
    rw [find?_discard_ne, find?_erase_scratch h hscratch]
    exact fun hlocate => htarget ((sameDirectories_erase h).symm.locate_eq_ok hlocate)

end Disk

end WitnessLift
