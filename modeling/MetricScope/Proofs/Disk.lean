import Mathlib.Data.List.Infix
import MetricScope.Disk

/-!
# Paths, and what one change of a tree leaves alone

A name that has no slash in it is one step down from the folder it is joined to. Making a
folder changes no file, and writing a file changes no other file and no folder, save the
folders on the way to it.
-/

set_option autoImplicit false

namespace MetricScope

namespace Path

variable {current left right : List Char}

theorem segments_of_not_mem (h : '/' ∉ right) : segments current right = [current ++ right] := by
  induction right generalizing current with
  | nil => rw [segments, List.append_nil]
  | cons c rest ih =>
    obtain ⟨hc, hrest⟩ := not_or.mp (mt List.mem_cons.mpr h)
    have hne : ¬ (c == '/') = true := by simpa using Ne.symm hc
    rw [segments, if_neg hne, ih hrest, List.append_assoc, List.singleton_append]

theorem segments_append_slash :
    segments current (left ++ '/' :: right) = segments current left ++ segments [] right := by
  induction left generalizing current with
  | nil => rfl
  | cons c rest ih =>
    rw [List.cons_append, segments, segments]
    split
    · rw [ih, List.cons_append]
    · rw [ih]

/-- A last segment that stands for itself leads one step down, be there a slash at the end
of the folder or not. -/
theorem ofText_of_segments {text folder name : String} (init : List (List Char))
    (htext : segments [] text.toList = init ++ [name.toList])
    (hfolder : segments [] folder.toList = init ∨ segments [] folder.toList = init ++ [[]])
    (hname : 2 < name.length) : ofText text = ofText folder ++ [name] := by
  rw [← String.length_toList] at hname
  rcases hfolder with hfolder | hfolder
  all_goals
    simp only [ofText, htext, hfolder, List.foldl_append, List.foldl_cons, List.foldl_nil]
    split
    next h => simp [h] at hname
    next h => simp [h] at hname
    next h => simp [h] at hname
    next => rw [String.ofList_toList]

end Path

namespace Disk

variable {Content : Type} {d d' : Disk Content} {p q : Path} {content : Content}

theorem writeFile_eq_ok (h : d.writeFile p content = .ok d') :
    d.isFolder p = false ∧
      d' = ⟨(p, content) :: d.files.filter fun file => file.1 != p, d.folders⟩ := by
  rw [writeFile] at h
  split at h
  · cases h
  next hp => exact ⟨Bool.eq_false_iff.mpr hp, (Except.ok.inj h).symm⟩

theorem writeFile_eq_error {fault : DiskFault} (h : d.writeFile p content = .error fault) :
    d.isFolder p = true ∧ fault = .isFolder := by
  rw [writeFile] at h
  split at h
  next hp => exact ⟨hp, (Except.error.inj h).symm⟩
  · cases h

theorem makeFolder_eq_ok (h : d.makeFolder p = .ok d') : d' = ⟨d.files, p :: d.folders⟩ := by
  rw [makeFolder] at h
  split at h
  · cases h
  · split at h
    · cases h
    · exact (Except.ok.inj h).symm

theorem file?_writeFile_of_ne (h : d.writeFile p content = .ok d') (hq : q ≠ p) :
    d'.file? q = d.file? q := by
  obtain ⟨-, rfl⟩ := writeFile_eq_ok h
  have hfirst : (p == q) = false := by simpa using Ne.symm hq
  simp only [file?, List.find?_cons, hfirst, List.find?_filter]
  congr 2
  funext file
  by_cases hfile : file.1 = q
  · simp [hfile, hq]
  · simp [hfile]

theorem file?_makeFolder (h : d.makeFolder p = .ok d') (q : Path) : d'.file? q = d.file? q := by
  rw [makeFolder_eq_ok h]
  rfl

/-- A file that is written makes folders of the paths above it only. -/
theorem isFolder_writeFile_of_not_above (h : d.writeFile p content = .ok d')
    (hq : q <+: p → q = p) : d'.isFolder q = d.isFolder q := by
  obtain ⟨-, rfl⟩ := writeFile_eq_ok h
  have hfirst : (q.isPrefixOf p && q != p) = false := by
    rw [Bool.and_eq_false_imp, List.isPrefixOf_iff_prefix]
    intro hpre
    simp [hq hpre]
  have hkept : ∀ file : Path × Content,
      (file.1 != p && (q.isPrefixOf file.1 && q != file.1)) =
        (q.isPrefixOf file.1 && q != file.1) := by
    intro file
    by_cases hfile : file.1 = p
    · rw [hfile, hfirst, Bool.and_false]
    · simp [hfile]
  simp only [isFolder, List.any_cons, hfirst, Bool.false_or, List.any_filter, hkept]

theorem isFolder_makeFolder_of_not_prefix (h : d.makeFolder p = .ok d') (hq : ¬ q <+: p) :
    d'.isFolder q = d.isFolder q := by
  rw [makeFolder_eq_ok h]
  have hfirst : q.isPrefixOf p = false := by
    rwa [← Bool.not_eq_true, List.isPrefixOf_iff_prefix]
  simp only [isFolder, List.any_cons, hfirst, Bool.false_or]

end Disk

end MetricScope
