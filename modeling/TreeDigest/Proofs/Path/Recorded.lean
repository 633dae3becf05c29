import TreeDigest.Proofs.Path.Components
import TreeDigest.Proofs.Text.Slashes
import TreeDigest.Scan.Basic

/-!
The texts under which places are recorded.

A recorded text is the composed form of a path without slashes and backslashes at its end. Different
names in one directory may be recorded alike, where their characters can be written in several ways
or where they end in backslashes; whether they are does not depend on the directory.

* `recorded_join_eq_iff` says which names in a directory are recorded alike.
* `plain_pathOf`: the plain path of a place is written plainly.
* `RootLocation.pathText_joinAll` is the text of a place below a root.
-/

namespace TreeDigest

namespace Path

/-! ### The end of a recorded text -/

/-- A text given backwards, without the slashes and backslashes at its end. -/
def bare (cs : List Char) : List Char := cs.dropWhile fun c => c = '/' ∨ c = '\\'

/-- What is written behind a slash is stripped first. -/
lemma stripEnd_append_slash (cs before : List Char) :
    stripEnd (cs ++ '/' :: before)
      = if bare cs = [] then stripEnd ('/' :: before) else bare cs ++ '/' :: before := by
  induction cs with
  | nil => rfl
  | cons c cs ih =>
      rw [List.cons_append, stripEnd]
      by_cases hc : c = '/' ∨ c = '\\'
      · have hbare : bare (c :: cs) = bare cs := by simp [bare, hc]
        rw [if_pos ⟨hc, by simp⟩, ih, hbare]
      · have hbare : bare (c :: cs) = c :: cs := by simp [bare, hc]
        rw [if_neg fun h => hc h.1, hbare, if_neg (by simp), List.cons_append]

lemma length_stripEnd_le (cs : List Char) : (stripEnd cs).length ≤ cs.length := by
  induction cs with
  | nil => exact le_rfl
  | cons c cs ih =>
      rw [stripEnd]
      split
      · exact ih.trans (by simp)
      · exact le_rfl

/-- Behind one text and a slash, two texts end up alike just where they are the same without the
slashes and backslashes at their ends. -/
lemma stripEnd_append_slash_inj {cs ds before : List Char} :
    stripEnd (cs ++ '/' :: before) = stripEnd (ds ++ '/' :: before) ↔ bare cs = bare ds := by
  have hshort := length_stripEnd_le ('/' :: before)
  rw [stripEnd_append_slash, stripEnd_append_slash]
  constructor
  · intro heq
    by_cases hcs : bare cs = [] <;> by_cases hds : bare ds = []
    · rw [hcs, hds]
    · rw [if_pos hcs, if_neg hds] at heq
      have hlonger := List.length_pos_iff.mpr hds
      rw [heq, List.length_append] at hshort
      omega
    · rw [if_neg hcs, if_pos hds] at heq
      have hlonger := List.length_pos_iff.mpr hcs
      rw [← heq, List.length_append] at hshort
      omega
    · rw [if_neg hcs, if_neg hds] at heq
      exact List.append_cancel_right heq
  · intro heq
    rw [heq]

/-! ### Names in a directory -/

/-- The end of the recorded text of a name, given backwards. -/
def tag (name : Bytes) : List Char := bare (Text.composed (Text.lossy name)).toList.reverse

/-- The recorded text of a path is made of what stands before and after a slash. -/
lemma recorded_append_slash (stem name : Bytes) :
    recorded ⟨stem ++ slash :: name⟩
      = .ofList (stripEnd ((Text.composed (Text.lossy name)).toList.reverse
          ++ '/' :: (Text.composed (Text.lossy stem)).toList.reverse)).reverse := by
  have hread : Text.lossy (stem ++ slash :: name)
      = .ofList ((Text.lossy stem).toList ++ '/' :: (Text.lossy name).toList) := by
    rw [← Text.lossy_append_slash, String.ofList_toList]
  have hcomposed := Text.composed_append_slash (Text.lossy stem).toList (Text.lossy name).toList
  rw [String.ofList_toList, String.ofList_toList] at hcomposed
  rw [recorded, display, normalize, hread, hcomposed]
  simp

/-- Names are joined to a path behind the same bytes. -/
lemma exists_stem {p : Path} (hp : p.bytes ≠ []) :
    ∃ stem, ∀ name, IsName name → p.join ⟨name⟩ = ⟨stem ++ slash :: name⟩ := by
  by_cases hlast : p.bytes.getLast? = some slash
  · obtain ⟨init, hinit⟩ := List.getLast?_eq_some_iff.mp hlast
    refine ⟨init, fun name hname => ?_⟩
    have hbytes : (p.join ⟨name⟩).bytes = init ++ slash :: name := by
      rw [join_name hp hname, if_pos hlast, hinit]
      simp
    exact congrArg Path.mk hbytes
  · refine ⟨p.bytes, fun name hname => ?_⟩
    have hbytes : (p.join ⟨name⟩).bytes = p.bytes ++ slash :: name := by
      rw [join_name hp hname, if_neg hlast]
      simp
    exact congrArg Path.mk hbytes

/-- **Which names in a directory are recorded alike.** -/
theorem recorded_join_eq_iff {p : Path} (hp : p.bytes ≠ []) {name name' : Bytes}
    (hname : IsName name) (hname' : IsName name') :
    (p.join ⟨name⟩).recorded = (p.join ⟨name'⟩).recorded ↔ tag name = tag name' := by
  obtain ⟨stem, hstem⟩ := exists_stem hp
  rw [hstem name hname, hstem name' hname', recorded_append_slash, recorded_append_slash,
    String.ofList_inj, List.reverse_inj, stripEnd_append_slash_inj, tag, tag]

/-! ### Plain paths -/

/-- The plain spelling of a root and some names. -/
lemma ofComponents_root (names : List Bytes) :
    ofComponents (.root :: names.map .name) = joinAll ⟨[slash]⟩ names := by
  rw [ofComponents, List.foldl_cons, List.foldl_map]
  rfl

/-- Names are joined to the root as the plain path of a place writes them. -/
lemma joinAll_root {names : List Bytes} (hnames : ∀ name ∈ names, IsName name) :
    joinAll ⟨[slash]⟩ names = FileSystem.pathOf names := by
  induction names using List.reverseRecOn with
  | nil => rfl
  | append_singleton names name ih =>
      have hname := hnames name (by simp)
      have ih := ih fun n hn => hnames n (by simp [hn])
      have hne : (FileSystem.pathOf names).bytes ≠ [] := by simp [FileSystem.pathOf]
      have hbytes : ((FileSystem.pathOf names).join ⟨name⟩).bytes
          = (FileSystem.pathOf (names ++ [name])).bytes := by
        rw [join_name hne hname]
        obtain rfl | ⟨init, last, rfl⟩ := List.eq_nil_or_concat' names
        · simp [FileSystem.pathOf]
        · have hopen := getLast?_pathOf init (hnames last (by simp))
          have hwritten : [slash].intercalate (init ++ [last] ++ [name])
              = [slash].intercalate (init ++ [last]) ++ slash :: [slash].intercalate [name] :=
            intercalate_append (by simp) (by simp)
          rw [if_neg hopen, FileSystem.pathOf, FileSystem.pathOf, hwritten]
          simp
      rw [joinAll_concat, ih]
      exact congrArg Path.mk hbytes

/-- The plain path of a place is written plainly. -/
lemma plain_pathOf {names : List Bytes} (hnames : ∀ name ∈ names, IsName name) :
    (FileSystem.pathOf names).plain = FileSystem.pathOf names := by
  rw [plain, components_pathOf hnames, ofComponents_root, joinAll_root hnames]

/-- A path climbs where it goes through two dots. -/
lemma climbs_iff {p : Path} : p.climbs = true ↔ [dot, dot] ∈ p.steps := by
  have hparent : ∀ segment, component? segment = some .parent ↔ segment = [dot, dot] := by
    intro segment
    rw [component?]
    split
    · next hskip => rcases hskip with rfl | rfl <;> simp
    · split
      · next hdots => simp [hdots]
      · next hdots => simp [hdots]
  have hstart : Component.parent ∉ (if p.isAbsolute then [Component.root]
      else if p.segments.head? = some [dot] then [.current] else []) := by
    split_ifs <;> simp
  rw [climbs, List.contains_iff_mem, components, List.mem_append, List.mem_filterMap]
  simp [hstart, hparent, steps]

/-- What an absolute path goes through that does not climb, apart from single dots. -/
lemma components_of_not_climbs {p : Path} (hp : p.isAbsolute = true) (hclimbs : p.climbs = false)
    (hnul : 0 ∉ p.bytes) : (∀ name ∈ p.steps.filter (· ≠ [dot]), IsName name)
      ∧ p.components = .root :: (p.steps.filter (· ≠ [dot])).map .name := by
  have hnames : ∀ name ∈ p.steps.filter (· ≠ [dot]), IsName name := by
    intro name hname
    obtain ⟨hstep, hdot⟩ := List.mem_filter.mp hname
    obtain ⟨hsegment, hne⟩ := List.mem_filter.mp hstep
    obtain ⟨hslash, hbytes⟩ := Text.mem_of_mem_splitOn hsegment
    refine ⟨by simpa using hne, by simpa using hdot, ?_, hslash, fun hzero => hnul (hbytes 0 hzero)⟩
    rintro rfl
    simp [climbs_iff.mpr hstep] at hclimbs
  have hdots : p.steps.filterMap component?
      = (p.steps.filter (· ≠ [dot])).filterMap component? := by
    rw [List.filterMap_filter]
    congr 1
    funext segment
    by_cases hsegment : segment = [dot] <;> simp [hsegment, component?]
  rw [components_of_isAbsolute hp, hdots, filterMap_component? hnames]
  exact ⟨hnames, rfl⟩

/-- **An absolute path that does not climb** is written plainly as the path of its names. -/
lemma plain_of_not_climbs {p : Path} (hp : p.isAbsolute = true) (hclimbs : p.climbs = false)
    (hnul : 0 ∉ p.bytes) : p.plain = FileSystem.pathOf (p.steps.filter (· ≠ [dot])) := by
  obtain ⟨hnames, hcomponents⟩ := components_of_not_climbs hp hclimbs hnul
  rw [plain, hcomponents, ofComponents_root, joinAll_root hnames]

/-- Some names make a relative path, and it may be joined at once. -/
lemma join_joinAll {names : List Bytes} (hne : names ≠ [])
    (hnames : ∀ name ∈ names, IsName name) :
    (joinAll ⟨[]⟩ names).bytes ≠ [] ∧ ∀ c : Path, c.join (joinAll ⟨[]⟩ names) = c.joinAll names := by
  induction names using List.reverseRecOn with
  | nil => exact absurd rfl hne
  | append_singleton names name ih =>
      have hname := hnames name (by simp)
      have hbefore : ∀ n ∈ names, IsName n := fun n hn => hnames n (by simp [hn])
      have hrelative : (joinAll ⟨[]⟩ names).isAbsolute = false := isAbsolute_joinAll ⟨[]⟩ hbefore
      rw [joinAll_concat]
      refine ⟨by simp [bytes_join hname.not_absolute, hname.nonempty], fun c => ?_⟩
      by_cases hempty : names = []
      · have hone : join ⟨[]⟩ ⟨name⟩ = ⟨name⟩ := by
          rw [join, if_neg (by simp [hname.not_absolute]), if_pos (.inl rfl), List.nil_append]
        rw [hempty, joinAll, List.foldl_nil, hone]
        rfl
      · rw [← join_join hrelative hname, (ih hempty hbefore).2 c, joinAll_concat]

end Path

namespace RootLocation

/-- The absolute form of a path is the path itself, or the path below the current directory. -/
lemma absolute_ok {fs : FileSystem} {p a : Path} (ha : absolute fs p = .ok a) :
    (p.isAbsolute = true ∧ a = p)
      ∨ p.isAbsolute = false ∧ ∃ t, fs.currentTrail = .ok t
        ∧ a = (FileSystem.pathOf t.names).join p := by
  rw [absolute] at ha
  split at ha
  · next habs => exact .inl ⟨habs, (Except.ok.inj ha).symm⟩
  · next habs =>
      rw [FileSystem.currentPath] at ha
      cases htrail : fs.currentTrail with
      | error e => simp [htrail, Except.map] at ha
      | ok t => exact .inr ⟨by simpa using habs, t, rfl, by simpa [htrail, Except.map] using ha.symm⟩

/-- The absolute form of a path stays what it is as long as the current directory does. -/
lemma absolute_of_currentPath {fs fs' : FileSystem} {p a : Path}
    (hcurrent : ∀ q, fs.currentPath = .ok q → fs'.currentPath = .ok q)
    (ha : absolute fs p = .ok a) : absolute fs' p = .ok a := by
  rw [absolute] at ha ⊢
  split
  · next habs => rwa [if_pos habs] at ha
  · next habs =>
      rw [if_neg habs] at ha
      cases hq : fs.currentPath with
      | error e => simp [hq, Except.map] at ha
      | ok q =>
          rw [hcurrent q hq]
          rwa [hq] at ha

lemma isAbsolute_of_absolute {fs : FileSystem} {p a : Path} (ha : absolute fs p = .ok a) :
    a.isAbsolute = true := by
  rcases absolute_ok ha with ⟨habs, rfl⟩ | ⟨habs, t, -, rfl⟩
  · exact habs
  · rw [Path.join, if_neg (by simp [habs])]
    split <;> rfl

/-- **The text of a place below a root**: some names below the walked path are recorded as these
names below the path that is recorded for the root. -/
theorem pathText_joinAll {r : RootLocation} (hr : r.walked.isAbsolute = true) {names : List Bytes}
    (hnames : ∀ name ∈ names, Path.IsName name) :
    r.pathText (r.walked.joinAll names) = (r.recorded.joinAll names).recorded := by
  have hbelow : r.walked.relative? (r.walked.joinAll names)
      = some (Path.joinAll ⟨[]⟩ names) := by
    rw [Path.relative?, Path.Component.below?, Path.components_joinAll hr hnames,
      Text.dropStart?_append, Option.map_some, Path.ofComponents, List.foldl_map]
    rfl
  rw [pathText, hbelow]
  by_cases hempty : names = []
  · rw [hempty]
    rfl
  · obtain ⟨hne, hjoin⟩ := Path.join_joinAll hempty hnames
    dsimp only
    rw [if_neg hne, hjoin]

end RootLocation

end TreeDigest
