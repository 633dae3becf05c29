import TreeDigest.Proofs.FileSystem.Growing
import TreeDigest.Proofs.Path.Components

/-!
Full paths of files.

A path that leads to a file ends in a name, so what it is called is seen from its last step. Written
behind the path of the current directory it is the full path of the file, which leads to the same
place as long as it is short enough to be looked up.

* `exists_last_step`: a path that leads to a file or to a special node ends in a name.
* `resolve_join_current`: the full path leads to the same place, so `isFile_join_current_iff`.
* `isFile_addExtension`: no file is found under a full path that is too long, nor under one with
  an extension put after it.
-/

namespace TreeDigest

open TreeDigest.Path

namespace Path

/-- Nothing is taken off the end of a path that ends neither in a slash nor in a single dot. -/
lemma trimEnd_eq {bytes : Bytes} (keep : ℕ) (hslash : bytes.getLast? ≠ some slash)
    (hdot : ∀ before, bytes ≠ before ++ [slash, dot]) :
    trimEnd keep bytes.reverse = bytes.reverse := by
  rcases List.eq_nil_or_concat bytes with rfl | ⟨init, a, rfl⟩
  · rfl
  have ha : a ≠ slash := by simpa using hslash
  rcases List.eq_nil_or_concat init with rfl | ⟨before, b, rfl⟩
  · simp [trimEnd, ha]
  · have hends : ¬ (a = dot ∧ b = slash) := by
      rintro ⟨rfl, rfl⟩
      exact hdot before (by simp)
    simp [trimEnd, ha, hends]

end Path

namespace FileSystem

variable {fs : FileSystem} {p current : Path} {follow : Bool}

/-! ### The last step -/

/-- A step that leads to no entry: a single dot or two. -/
def IsDots (step : Bytes) : Prop := step = [dot] ∨ step = [dot, dot]

lemma leg_dots {T : Trail} {step : Bytes} {l : Leg} (hstep : IsDots step)
    (hl : fs.leg follow T [step] = .ok l) : ∃ U, l = .arrived (.directory U) := by
  rcases hstep with rfl | rfl
  · exact ⟨T, by simpa [leg] using hl.symm⟩
  · exact ⟨T.tail, by simpa [leg, dot] using hl.symm⟩

/-- After dots a lookup stands in a directory. -/
lemma legs_dots {links : ℕ} {T : Trail} {before : List Bytes} {step : Bytes} {place : Place}
    (hstep : IsDots step) (hp : fs.legs follow links T (before ++ [step]) = .ok place) :
    ∃ U, place = .directory U := by
  generalize hnames : before ++ [step] = names at hp
  induction hp using legs_ok_induction generalizing before with
  | arrived links T names hl =>
      subst hnames
      rcases leg_append_ok (by simp) hl with ⟨U, -, hlast⟩ | ⟨U, target, rest, -, hlink⟩
      · obtain ⟨V, hV⟩ := leg_dots hstep hlast
        exact ⟨V, Leg.arrived.inj hV⟩
      · cases hlink
  | link links T names U target rest hl hbehind ih =>
      subst hnames
      rcases leg_append_ok (by simp) hl with ⟨V, -, hlast⟩ | ⟨V, target', rest', -, hlink⟩
      · obtain ⟨W, hW⟩ := leg_dots hstep hlast
        cases hW
      · obtain ⟨-, -, rfl⟩ := Leg.link.inj hlink
        exact ih (List.append_assoc _ _ _)

/-- **A path that leads to a file ends in a name.** -/
lemma exists_last_step {T : Trail} {x : Bytes} {n : Node}
    (hp : fs.resolve follow p = .ok (.other T x n)) :
    ∃ before last, p.steps = before ++ [last] ∧ ¬ IsDots last := by
  obtain ⟨-, start, -, hlegs⟩ := resolve_ok hp
  rcases List.eq_nil_or_concat p.steps with hnone | ⟨before, last, hsteps⟩
  · have hleg : fs.leg (follow || closed p) start [] = .ok (.arrived (.directory start)) := rfl
    rw [hnone, legs_arrived hleg] at hlegs
    cases hlegs
  · refine ⟨before, last, by simpa using hsteps, fun hdots => ?_⟩
    rw [hsteps, List.concat_eq_append] at hlegs
    obtain ⟨U, hU⟩ := legs_dots hdots hlegs
    cases hU

/-- No file is found under a path that is too long. -/
lemma short_of_isFile (hfile : fs.isFile p = true) : p.bytes.length ≤ maxPath := by
  obtain ⟨T, x, content, modified, hres⟩ := resolve_of_isFile hfile
  exact (resolve_ok hres).1.short

/-! ### Behind the current directory -/

variable (fs) in
/-- The current directory has a path of names that are not too long. -/
def CurrentNamed : Prop := ∀ name ∈ fs.current, IsName name ∧ name.length ≤ maxName

/-- Names that are not too long lead along their trail from the root. -/
lemma leg_names_of_short {T : Trail} (hT : T.Valid fs)
    (hnames : ∀ name ∈ T.names, IsName name ∧ name.length ≤ maxName) (rest : List Bytes) :
    fs.leg follow [] (T.names ++ rest) = fs.leg follow T rest := by
  induction T generalizing rest with
  | nil => rfl
  | cons step T ih =>
      obtain ⟨name, es⟩ := step
      obtain ⟨hfind, hT⟩ := hT
      rw [Trail.names_cons] at hnames
      obtain ⟨hname, hshort⟩ := hnames name (by simp)
      rw [Trail.names_cons, List.append_assoc, List.singleton_append,
        ih hT fun n hn => hnames n (List.mem_append_left _ hn), leg,
        if_neg (by simp [hname.nonempty, hname.notDot]), if_neg hname.notDots,
        if_neg (Nat.not_lt.mpr hshort), hfind]

section Current

variable (hnames : fs.CurrentNamed) (hcurrent : fs.currentPath = .ok current)
include hcurrent

/-- The current directory is there, and its path spells the names that lead to it. -/
lemma exists_currentTrail : ∃ T, fs.currentTrail = .ok T ∧ T.Valid fs ∧ T.names = fs.current
    ∧ current = pathOf T.names := by
  rw [currentPath] at hcurrent
  cases htrail : fs.currentTrail with
  | error e => simp [htrail, Except.map] at hcurrent
  | ok T =>
      have hpath : pathOf T.names = current := by simpa [htrail, Except.map] using hcurrent
      rw [currentTrail] at htrail
      split at htrail
      · next U hU =>
          obtain rfl := Except.ok.inj htrail
          exact ⟨U, rfl, trailOf?_valid hU, names_of_trailOf? hU, hpath.symm⟩
      · cases htrail

lemma isAbsolute_join_current (hp : p.isAbsolute = false) :
    (current.join p).isAbsolute = true := by
  obtain ⟨T, -, -, -, rfl⟩ := exists_currentTrail hcurrent
  simp [isAbsolute, bytes_join hp, pathOf]

include hnames

/-- Behind the current directory a path goes through the names of both. -/
lemma steps_join_current (hp : p.isAbsolute = false) :
    (current.join p).steps = fs.current ++ p.steps := by
  obtain ⟨T, -, -, hT, rfl⟩ := exists_currentTrail hcurrent
  rw [steps_join_relative (by simp [pathOf]) hp, hT, steps_pathOf fun name hn => (hnames name hn).1]

/-- The full path of a file has the extension of the file. -/
lemma extension?_join_current {T : Trail} {x : Bytes} {n : Node}
    (hp : fs.resolve follow p = .ok (.other T x n)) :
    (current.join p).extension? = p.extension? := by
  cases habs : p.isAbsolute with
  | true => rw [join, if_pos habs]
  | false =>
      obtain ⟨before, last, hsteps, hdots⟩ := exists_last_step hp
      have hmem : last ∈ p.steps := by simp [hsteps]
      have hne : last ≠ [] := by simpa using (List.mem_filter.mp hmem).2
      have hlast : component? last = some (.name last) := by
        rw [IsDots, not_or] at hdots
        rw [component?, if_neg (by simp [hne, hdots.1]), if_neg hdots.2]
      have hsteps' := steps_join_current hnames hcurrent habs
      rw [extension?, extension?, fileName?_of_getLast?_steps (p := p) (by simp [hsteps]) hlast,
        fileName?_of_getLast?_steps (by simp [hsteps', hsteps]) hlast]

/-- **The full path of a file leads to it**, if it is not too long. -/
theorem resolve_join_current (hp : Acceptable p)
    (hshort : (current.join p).bytes.length ≤ maxPath) :
    fs.resolve follow (current.join p) = fs.resolve follow p := by
  cases habs : p.isAbsolute with
  | true => rw [join, if_pos habs]
  | false =>
      obtain ⟨T, htrail, hT, htrailNames, rfl⟩ := exists_currentTrail hcurrent
      have hnames' : ∀ name ∈ T.names, IsName name ∧ name.length ≤ maxName := htrailNames ▸ hnames
      have hbytes := bytes_join (p := pathOf T.names) habs
      have hslash : (0 : UInt8) ≠ slash := by decide
      have hacc : Acceptable ((pathOf T.names).join p) := by
        refine ⟨?_, by simp [hbytes, hp.nonempty], hshort⟩
        rw [hbytes]
        split <;> simp [nul_notMem_pathOf fun name hn => (hnames' name hn).1, hp.noNul, hslash]
      have hclosed : closed ((pathOf T.names).join p) = closed p := by
        rw [closed, closed, hbytes, List.getLast?_append_of_ne_nil _ hp.nonempty]
      have hstart : fs.startOf ((pathOf T.names).join p) = .ok [] := by
        rw [startOf, if_pos (isAbsolute_join_current hcurrent habs)]
      have hstart' : fs.startOf p = .ok T := by
        rw [startOf, if_neg (by simp [habs]), htrail]
      rw [resolve_eq follow hacc, resolve_eq follow hp, hstart, hstart', hclosed,
        steps_join_current hnames hcurrent habs, ← htrailNames]
      simp only [Except.bind]
      rw [legs_congr (leg_names_of_short hT hnames' p.steps)]

/-- What a file is under its full path. -/
lemma node_join_current (hfile : fs.isFile p = true) (hshort : (current.join p).bytes.length ≤ maxPath) :
    fs.node follow (current.join p) = fs.node follow p := by
  obtain ⟨T, x, content, modified, hres⟩ := resolve_of_isFile hfile
  rw [node_eq, node_eq, resolve_join_current hnames hcurrent (resolve_ok hres).1 hshort]

/-- **A file is found under its full path** just where that is not too long. -/
theorem isFile_join_current_iff (hfile : fs.isFile p = true) :
    fs.isFile (current.join p) = true ↔ (current.join p).bytes.length ≤ maxPath := by
  refine ⟨short_of_isFile, fun hshort => ?_⟩
  rw [isFile, node_join_current hnames hcurrent hfile hshort]
  exact hfile

/-- What is read under the full path is what is in the file. -/
lemma read_join_current (hfile : fs.isFile p = true) (hthere : fs.isFile (current.join p) = true) :
    fs.read (current.join p) = fs.read p := by
  rw [read, read, node_join_current hnames hcurrent hfile (short_of_isFile hthere)]

end Current

/-! ### Paths that are too long -/

/-- **Where a full path is too long no extension helps.** -/
lemma isFile_addExtension (hnames : fs.CurrentNamed) (hcurrent : fs.currentPath = .ok current)
    {T : Trail} {x : Bytes} {n : Node} (hp : fs.resolve follow p = .ok (.other T x n))
    (hlong : maxPath < (current.join p).bytes.length) (extension : String) :
    fs.isFile ((current.join p).addExtension extension) = false := by
  have hnone : ∀ q : Path, maxPath < q.bytes.length → fs.isFile q = false := fun q hq =>
    Bool.eq_false_of_not_eq_true fun hfile => absurd (short_of_isFile hfile) (Nat.not_le.mpr hq)
  rw [addExtension]
  split
  · exact hnone _ hlong
  · have hacc := (resolve_ok hp).1
    have habs : p.isAbsolute = false := by
      by_contra habs
      rw [Bool.not_eq_false] at habs
      rw [join, if_pos habs] at hlong
      exact absurd hacc.short (Nat.not_le.mpr hlong)
    obtain ⟨before, last, hsteps, hdots⟩ := exists_last_step hp
    have hsteps' : (current.join p).steps = (fs.current ++ before) ++ [last] := by
      rw [steps_join_current hnames hcurrent habs, hsteps, List.append_assoc]
    have hslash : (current.join p).bytes.getLast? ≠ some slash := by
      rw [bytes_join habs, List.getLast?_append_of_ne_nil _ hacc.nonempty]
      simpa [closed] using closed_of_resolve_other hp
    have hdot : ∀ front, (current.join p).bytes ≠ front ++ [slash, dot] := by
      intro front hfront
      rw [steps, segments, hfront, Text.splitOn_append_cons, List.filter_append] at hsteps'
      exact hdots (.inl (List.singleton_inj.mp (List.append_inj_right' hsteps' rfl)).symm)
    refine hnone _ ?_
    rw [trimEnd_eq _ hslash hdot, List.reverse_reverse, List.length_append]
    omega

end FileSystem

end TreeDigest
