-- SUMMARY: The files around a model have places of their own, however it is spelled.
import WitnessLift.Proofs.Storage.Scratch

/-!
# The files around a model

The trace, the witness and its scratch file bear the name of the model, each with an extension of
its own, in a directory that can be anything. So they never meet each other or the model, however
the model and the directory are spelled.
-/

namespace WitnessLift

namespace Path

variable {model path : Path} {before : List Char} {e : String}

/-- A file in a directory, under the name of a model with an extension. -/
def beside (model directory : Path) (e : String) : Path :=
  directory.join (model.baseName.withExtension e)

/-- The last piece of the base name of a model, which is its name if it has one. -/
def stem (model : Path) : List Char := (segments model.baseName.text.toList).getLastD []

/-- The last name on the path of a file under the name of a model. -/
def label (model : Path) (e : String) : List Char := model.stem ++ '.' :: e.toList

/-- An extension with which a name is a name still, and stands for itself. -/
def IsExtension (e : String) : Prop := '/' ∉ e.toList ∧ 2 ≤ e.toList.length

instance (e : String) : Decidable (IsExtension e) := inferInstanceAs (Decidable (_ ∧ _))

theorem label_injective {e e' : String} (h : model.label e = model.label e') :
    e.toList = e'.toList :=
  List.tail_eq_of_cons_eq (List.append_cancel_left h)

theorem eq_of_toList_text {p q : Path} (h : p.text.toList = q.text.toList) : p = q := by
  cases p
  cases q
  exact congrArg Path.mk (String.toList_injective h)

theorem trace_eq_beside (model directory : Path) :
    model.trace directory = model.beside directory "cex" := rfl

theorem witness_eq_beside (model directory : Path) :
    model.witness directory = model.beside directory "cexb" := rfl

/-! ## The text of a path -/

theorem Opens.append {before' : List Char} (h : Opens before) (h' : Opens before') :
    Opens (before ++ before') := by
  rcases h' with rfl | h'
  · rwa [List.append_nil]
  · refine .inr ?_
    rw [List.getLast?_append, h']
    rfl

theorem Opens.getLastD_segments (h : Opens before) {last : List Char} (hlast : '/' ∉ last) :
    (segments (before ++ last)).getLastD [] = last := by
  obtain ⟨pieces, hpieces⟩ := h.exists_segments
  rw [hpieces last hlast, List.getLastD_concat]

theorem toList_withExtension (p : Path) (e : String) :
    (p.withExtension e).text.toList = p.text.toList ++ '.' :: e.toList := by
  simp [withExtension]

/-- An extension does not change where a path starts. -/
theorem isAbsolute_withExtension (p : Path) (e : String) :
    (p.withExtension e).isAbsolute = p.isAbsolute := by
  rw [isAbsolute, isAbsolute, toList_withExtension]
  cases p.text.toList <;> rfl

/-- Before the label of a file around a model stands the same text, whatever the extension. -/
theorem exists_beside_eq (model directory : Path) :
    ∃ before, Opens before ∧
      ∀ e, (model.beside directory e).text.toList = before ++ model.label e := by
  obtain ⟨start, last, hbase, hstart, hlast⟩ := exists_opens model.baseName.text.toList
  have hstem : model.stem = last := by
    rw [stem, hbase, hstart.getLastD_segments hlast]
  have htext : ∀ e, (model.baseName.withExtension e).text.toList = start ++ model.label e := by
    intro e
    rw [toList_withExtension, hbase, label, hstem, List.append_assoc]
  simp only [beside, join, isAbsolute_withExtension]
  split_ifs with habsolute hopens
  · exact ⟨start, hstart, htext⟩
  · have hdirectory : Opens directory.text.toList := hopens
    refine ⟨directory.text.toList ++ start, hdirectory.append hstart, fun e => ?_⟩
    rw [String.toList_append, htext, List.append_assoc]
  · have hdirectory : Opens (directory.text.toList ++ ['/']) := .inr List.getLast?_concat
    refine ⟨directory.text.toList ++ ['/'] ++ start, hdirectory.append hstart, fun e => ?_⟩
    rw [String.toList_append, String.toList_append, htext]
    simp

theorem label_ne (model : Path) (h : IsExtension e) {t : List Char} (ht : t.length < 3) :
    model.label e ≠ t := by
  rintro rfl
  have hlength := h.2
  simp only [label, List.length_append, List.length_cons] at ht
  omega

theorem slash_notMem_stem (model : Path) : '/' ∉ model.stem := by
  obtain ⟨start, last, hbase, hstart, hlast⟩ := exists_opens model.baseName.text.toList
  rwa [stem, hbase, hstart.getLastD_segments hlast]

theorem slash_notMem_label (model : Path) (h : IsExtension e) : '/' ∉ model.label e := by
  simp [label, slash_notMem_stem, h.1]

theorem beside_injective {directory : Path} {e e' : String}
    (h : model.beside directory e = model.beside directory e') : e.toList = e'.toList := by
  obtain ⟨before, -, htext⟩ := exists_beside_eq model directory
  have hlist := congrArg (fun p => p.text.toList) h
  simp only [htext] at hlist
  exact label_injective (List.append_cancel_left hlist)

/-- The names of a file around a model, with the label last. -/
theorem exists_names_beside (model directory : Path) (h : IsExtension e) :
    ∃ above, (model.beside directory e).names = above ++ [model.label e] := by
  obtain ⟨before, hopens, htext⟩ := exists_beside_eq model directory
  obtain ⟨pieces, hpieces⟩ := hopens.exists_segments
  have hne : model.label e ≠ [] := model.label_ne h (by decide)
  refine ⟨pieces.filter (· ≠ []), ?_⟩
  rw [names, htext, hpieces _ (model.slash_notMem_label h), List.filter_append]
  simp [hne]

theorem getLast?_beside (model directory : Path) (h : IsExtension e) :
    (model.beside directory e).text.toList.getLast? ≠ some '/' := by
  obtain ⟨before, hopens, htext⟩ := exists_beside_eq model directory
  rw [htext, List.getLast?_append, List.getLast?_eq_some_getLast (model.label_ne h (by decide))]
  intro hslash
  have hlast := List.getLast_mem (model.label_ne h (t := []) (by decide))
  rw [Option.some.inj hslash] at hlast
  exact model.slash_notMem_label h hlast

/-- The scratch file of a witness is a file around the model as well. -/
theorem scratch_witness (model directory : Path) :
    (model.witness directory).scratch = model.beside directory "cexb.tmp" := by
  obtain ⟨before, -, htext⟩ := exists_beside_eq model directory
  have hlist : (model.witness directory).scratch.text.toList =
      (model.beside directory "cexb.tmp").text.toList := by
    rw [toList_scratch, witness_eq_beside, htext, htext, label, label]
    simp [scratchSuffix]
  exact eq_of_toList_text hlist

theorem trace_ne_scratch (model directory : Path) :
    model.trace directory ≠ (model.witness directory).scratch := by
  rw [scratch_witness, trace_eq_beside]
  exact fun h => absurd (beside_injective h) (by decide)

theorem trace_ne_witness (model directory : Path) :
    model.trace directory ≠ model.witness directory := by
  rw [witness_eq_beside, trace_eq_beside]
  exact fun h => absurd (beside_injective h) (by decide)

theorem witness_ne_scratch (model directory : Path) :
    model.witness directory ≠ (model.witness directory).scratch := by
  rw [scratch_witness, witness_eq_beside]
  exact fun h => absurd (beside_injective h) (by decide)

end Path

/-! ## Where the files are -/

namespace Disk

open WitnessLift.Path

variable {d : Disk} {model directory path : Path} {e e' : String} {p q : Place}

/-- A file around a model is looked for under its label, and nothing else. -/
theorem exists_spot_beside (h : IsExtension e) {spot : Spot}
    (hspot : d.spot (model.beside directory e) = .ok spot) :
    ∃ parent, spot = .name parent (model.label e) false := by
  obtain ⟨above, hnames⟩ := exists_names_beside model directory h
  obtain ⟨-, ⟨hnone, -⟩ | ⟨before, last, parent, hsome, -, rfl⟩⟩ := spot_eq_ok_iff.mp hspot
  · simp [hnames] at hnone
  · rw [hnames] at hsome
    have hlast := congrArg List.getLast? hsome
    rw [List.getLast?_concat, List.getLast?_concat, Option.some.injEq] at hlast
    subst hlast
    refine ⟨parent, ?_⟩
    rw [Spot.ofLast, if_neg (model.label_ne h (by decide)), if_neg (model.label_ne h (by decide)),
      decide_eq_false (getLast?_beside model directory h)]

theorem names_of_locate_beside (h : IsExtension e)
    (hlocate : d.locate (model.beside directory e) = .ok p) :
    d.Names (model.beside directory e) p false := by
  obtain ⟨spot, hspot, hplace⟩ := Fault.bind_eq_ok_iff.mp hlocate
  obtain ⟨parent, rfl⟩ := exists_spot_beside h hspot
  exact ⟨parent, model.label e, hspot, hplace⟩

/-- A file around a model stands under its label. -/
theorem getLast?_of_locate_beside (h : IsExtension e)
    (hlocate : d.locate (model.beside directory e) = .ok p) :
    p.getLast? = some (String.ofList (model.label e)) := by
  obtain ⟨spot, hspot, hplace⟩ := Fault.bind_eq_ok_iff.mp hlocate
  obtain ⟨parent, rfl⟩ := exists_spot_beside h hspot
  rw [(place_eq_ok_iff.mp hplace).2, List.getLast?_concat]

/-- Two files around a model with different extensions stand at different places, also if the
directory is not the same. -/
theorem ne_of_locate_beside (h : IsExtension e) (h' : IsExtension e')
    (hne : e.toList ≠ e'.toList) {directory' : Path}
    (hp : d.locate (model.beside directory e) = .ok p)
    (hq : d.locate (model.beside directory' e') = .ok q) : p ≠ q := by
  rintro rfl
  have hlast := getLast?_of_locate_beside h hp
  rw [getLast?_of_locate_beside h' hq, Option.some.injEq] at hlast
  exact hne (label_injective (String.ofList_injective hlast)).symm

theorem text_beside_ne (model directory : Path) (h : IsExtension e) :
    (model.beside directory e).text ≠ "" := by
  obtain ⟨above, hnames⟩ := exists_names_beside model directory h
  intro hempty
  rw [names, hempty] at hnames
  exact List.append_ne_nil_of_right_ne_nil above (List.cons_ne_nil _ _) hnames.symm

/-- Where the scratch file of a witness can be created, the witness has a place beside it. -/
theorem exists_names_witness (h : d.creatable (model.witness directory).scratch = .ok q) :
    ∃ p, d.Names (model.witness directory) p false ∧ p ≠ q := by
  have hscratch := (creatable_eq_ok_iff.mp h).1.locate_eq
  rw [scratch_witness] at hscratch
  have hlocate : ∃ p, d.locate (model.witness directory) = .ok p := by
    rcases stat_or_names_of_creatable (text_beside_ne model directory (by decide)) h with
      hdirectory | ⟨p, hnames, -⟩
    · rcases stat_eq_ok_iff.mp hdirectory with ⟨p, hspot, -⟩ | ⟨p, slash, hnames, -⟩
      · obtain ⟨parent, hname⟩ := exists_spot_beside (e := "cexb") (by decide) hspot
        cases hname
      · exact ⟨p, hnames.locate_eq⟩
    · exact ⟨p, hnames.locate_eq⟩
  obtain ⟨p, hp⟩ := hlocate
  exact ⟨p, names_of_locate_beside (by decide) hp,
    ne_of_locate_beside (by decide) (by decide) (by decide) hp hscratch⟩

/-! ## Where the model is -/

/-- Behind the last separator of a path that names a file stands its name. -/
theorem exists_segments_of_names (h : d.Names path p false) :
    ∃ pieces name, segments path.text.toList = pieces ++ [name] ∧ '/' ∉ name ∧
      name ≠ [] ∧ name ≠ ['.'] ∧ name ≠ ['.', '.'] ∧ p.getLast? = some (String.ofList name) := by
  obtain ⟨parent, name, hspot, hplace⟩ := h
  obtain ⟨start, last, htext, hopens, hlast⟩ := exists_opens path.text.toList
  obtain ⟨pieces, hpieces⟩ := hopens.exists_segments
  have hsegments := hpieces last hlast
  rw [← htext] at hsegments
  obtain ⟨⟨-, hempty, -⟩, ⟨-, hroot⟩ | ⟨before, name', parent', hnames, -, hname⟩⟩ :=
    spot_eq_ok_iff.mp hspot
  · cases hroot
  · obtain ⟨hself, habove, rfl, rfl, hslash⟩ := ofLast_eq_name_iff.mp hname.symm
    have hne : last ≠ [] := by
      rintro rfl
      rw [List.append_nil] at htext
      subst htext
      rcases hopens with hnil | hends
      · exact hempty hnil
      · exact of_decide_eq_false hslash hends
    rw [names, hsegments, List.filter_append] at hnames
    obtain rfl : last = name' := by
      simpa [hne] using (List.append_inj' hnames (by simp [hne])).2
    refine ⟨pieces, last, hsegments, hlast, hne, hself, habove, ?_⟩
    rw [(place_eq_ok_iff.mp hplace).2, List.getLast?_concat]

/-- A file that a path names stands under the last name of the path. -/
theorem getLast?_of_names (h : d.Names model p false) :
    p.getLast? = some (String.ofList model.stem) := by
  obtain ⟨pieces, name, hsegments, hslash, hne, hself, habove, hlast⟩ := exists_segments_of_names h
  have hname : model.fileName? = some (String.ofList name) := by
    rw [fileName?, hsegments, List.reverse_concat,
      List.dropWhile_cons_of_neg (by simp [hne, hself])]
    exact if_neg habove
  rw [stem, baseName, hname, Option.getD_some, String.toList_ofList, segments_eq_singleton hslash]
  exact hlast

/-- No file around a model stands where the model is. -/
theorem ne_of_names (hp : d.Names model p false)
    (hq : d.locate (model.beside directory e) = .ok q) (h : IsExtension e) : p ≠ q := by
  rintro rfl
  have hlast := getLast?_of_locate_beside h hq
  rw [getLast?_of_names hp, Option.some.injEq] at hlast
  have hlength := congrArg List.length (String.ofList_injective hlast)
  simp [label] at hlength

end Disk

end WitnessLift
