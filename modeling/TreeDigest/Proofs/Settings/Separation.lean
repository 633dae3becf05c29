import Mathlib
import TreeDigest.Settings.Places
import TreeDigest.Workspace.Provider
import TreeDigest.Proofs.Builder.NameOrder
import TreeDigest.Proofs.Path.Components
import TreeDigest.Proofs.Text.Utf8

/-!
What two workspaces store, and where.

The data of a workspace lie below the program's directory under the full path of the
workspace, the workspaces of identities in `workspaces` and the execution history in
`history`. The full path of another workspace may run through these two names, since
nothing keeps directories of a tree from being called so.

* `places_standard` are the places where no setting says otherwise.
* `Path.KeptAmong` says when the second of two workspaces has its data among those that
  are kept for the first.
* `places_apart_iff`: the workspaces directories and the histories of two workspaces are
  four different places, and they and the directories of all identities are apart from
  each other just when neither workspace has its data among those of the other.
-/

namespace TreeDigest

open TreeDigest.Path

/-! ### Names -/

/-- An accepted identity is the name of an entry. -/
lemma Identity.isName {identity : String} (hid : Identity.validate identity = .ok ()) :
    IsName (Text.utf8 identity) := by
  have haccepted : isRefused identity = false := by
    by_contra hrefused
    simp [validate, Bool.not_eq_false _ ▸ hrefused] at hid
  simp only [isRefused, Bool.or_eq_false_iff, beq_eq_false_iff_ne, List.any_eq_false] at haccepted
  obtain ⟨⟨⟨hempty, hdot⟩, hdots⟩, hchars⟩ := haccepted
  have hspelled : ∀ s : String, Text.utf8 identity = Text.utf8 s → identity = s :=
    fun s hs => Text.utf8_injective hs
  refine ⟨fun h => hempty (hspelled "" h), fun h => hdot (hspelled "." h),
    fun h => hdots (hspelled ".." h), fun h => ?_, fun h => ?_⟩
  · exact hchars _ (Text.ofNat_mem_of_mem_utf8 h (by decide)) (by decide)
  · exact hchars _ (Text.ofNat_mem_of_mem_utf8 h (by decide)) (by decide)

lemma isName_programDirectory : IsName (Text.utf8 programDirectory) := by decide

lemma isName_workspaces : IsName (Text.utf8 "workspaces") := by decide

lemma isName_history : IsName (Text.utf8 "history") := by decide

/-! ### The places of one workspace -/

section Places

variable {h : Host} {home workspace : Path} {names : List Bytes}

/-- The data of a workspace lie below the program's directory, under the names that lead
to the workspace. -/
lemma Host.workspaceData_of (hhome : h.dataHome? = some home)
    (hplain : h.files.canonicalize workspace = .ok (FileSystem.pathOf names))
    (hnames : ∀ name ∈ names, IsName name) :
    h.workspaceData workspace = .ok ((home.child programDirectory).joinAll names) := by
  simp only [Host.workspaceData, hhome, hplain, Except.mapError, bind, Except.bind, pure,
    Except.pure, components_pathOf hnames, List.filterMap_cons, List.filterMap_map,
    Function.comp_def, List.filterMap_some, joinAll]

/-- The places below a directory for data. -/
def StoragePlaces.below (dir : Path) : StoragePlaces := ⟨dir.child "workspaces", dir.child "history"⟩

/-- **The places where no setting says otherwise.** -/
lemma StorageSettings.places_standard {dir : Path} (hdir : h.workspaceData workspace = .ok dir) :
    standard.places h workspace = .ok (.below dir) := by
  simp only [places, StoragePlaces.below, place, same, beq_self_eq_true, if_true, hdir, Except.map, bind, Except.bind,
    pure, Except.pure]

end Places

/-! ### Two workspaces -/

/-- The second workspace has its data among those that are kept for the first: its path is
that of the first with `workspaces` after it, or lies in the `history` of the first or in the
workspace of an identity there. -/
def Path.KeptAmong (p q : Path) : Prop :=
  q.LiesIn (p.child "history") ∨ q.same (p.child "workspaces") = true ∨
    ∃ identity, Identity.validate identity = .ok () ∧
      q.LiesIn ((p.child "workspaces").child identity)

/-- The path is the directory of an identity. -/
def StoragePlaces.IsWorkspace (s : StoragePlaces) (p : Path) : Prop :=
  ∃ (w : Workspaces) (identity : String), w.directory = s.workspaces ∧
    w.directoryOf identity = .ok p

/-- No two of the four places are the same. -/
structure StoragePlaces.Distinct (s t : StoragePlaces) : Prop where
  workspaces : s.workspaces.same t.workspaces = false
  histories : s.history.same t.history = false
  workspaces_history : s.workspaces.same t.history = false
  history_workspaces : s.history.same t.workspaces = false

/-- What is kept for identities at one of two places is apart from the history at the other
place and from what is kept for identities there. -/
structure StoragePlaces.Apart (s t : StoragePlaces) : Prop where
  workspaces : ∀ p q, s.IsWorkspace p → t.IsWorkspace q → p.Apart q
  workspaces_history : ∀ p, s.IsWorkspace p → p.Apart t.history
  history_workspaces : ∀ q, t.IsWorkspace q → q.Apart s.history

lemma StoragePlaces.isWorkspace_iff {s : StoragePlaces} {p : Path} :
    s.IsWorkspace p ↔ ∃ identity, Identity.validate identity = .ok () ∧
      p = s.workspaces.child identity := by
  constructor
  · rintro ⟨w, identity, hw, hp⟩
    refine ⟨identity, ?_⟩
    cases hid : Identity.validate identity with
    | error e => simp [Workspaces.directoryOf, hid, bind, Except.bind] at hp
    | ok _ =>
        simp only [Workspaces.directoryOf, hid, bind, Except.bind, pure, Except.pure, hw] at hp
        exact ⟨rfl, (Except.ok.inj hp).symm⟩
  · rintro ⟨identity, hid, rfl⟩
    refine ⟨.new s.workspaces .temporary, identity, rfl, ?_⟩
    simp only [Workspaces.directoryOf, hid, bind, Except.bind, pure, Except.pure, Workspaces.new]

namespace StoragePlaces

lemma Apart.symm {s t : StoragePlaces} (hst : s.Apart t) : t.Apart s :=
  ⟨fun p q hp hq => (hst.workspaces q p hq hp).symm, hst.history_workspaces, hst.workspaces_history⟩

section Below

variable {a b : Path}

/-- The places below two directories for data are four. -/
lemma distinct_below (hab : a.same b = false) : (below a).Distinct (below b) := by
  have hother : Text.utf8 "workspaces" ≠ Text.utf8 "history" := by decide
  refine ⟨?_, ?_, ?_, ?_⟩
  · rw [Bool.eq_false_iff, ne_eq, below, below,
      child_same_child_iff isName_workspaces isName_workspaces]
    simp [hab]
  · rw [Bool.eq_false_iff, ne_eq, below, below,
      child_same_child_iff isName_history isName_history]
    simp [hab]
  · rw [Bool.eq_false_iff, ne_eq, below, below,
      child_same_child_iff isName_workspaces isName_history]
    exact fun h => hother h.2
  · rw [Bool.eq_false_iff, ne_eq, below, below,
      child_same_child_iff isName_history isName_workspaces]
    exact fun h => hother h.2.symm

variable {identity identity' : String} (hid : Identity.validate identity = .ok ())
  (hid' : Identity.validate identity' = .ok ())

include hid hid' in
/-- The directory of an identity lies in one of another workspace only if its own workspace
has its data there. -/
lemma keptAmong_of_workspace_liesIn_workspace (hab : a.same b = false)
    (hlies : ((a.child "workspaces").child identity).LiesIn
      ((b.child "workspaces").child identity')) : b.KeptAmong a := by
  rw [child_liesIn_iff (Identity.isName hid), child_same_child_iff (Identity.isName hid)
    (Identity.isName hid'), child_same_child_iff isName_workspaces isName_workspaces, hab,
    child_liesIn_iff isName_workspaces, child_same_child_iff isName_workspaces
    (Identity.isName hid')] at hlies
  rcases hlies with ⟨⟨hsame, -⟩, -⟩ | ⟨hsame, -⟩ | hlies
  · exact absurd hsame (by decide)
  · exact .inr (.inl hsame)
  · exact .inr (.inr ⟨identity', hid', hlies⟩)

include hid in
/-- The directory of an identity lies in the history of another workspace only if one of the
two has its data among those of the other. -/
lemma keptAmong_of_workspace_liesIn_history
    (hlies : ((a.child "workspaces").child identity).LiesIn (b.child "history")) :
    a.KeptAmong b ∨ b.KeptAmong a := by
  have hother : Text.utf8 "workspaces" ≠ Text.utf8 "history" := by decide
  rw [child_liesIn_iff (Identity.isName hid), child_same_child_iff (Identity.isName hid)
    isName_history, child_liesIn_iff isName_workspaces,
    child_same_child_iff isName_workspaces isName_history] at hlies
  rcases hlies with ⟨hsame, -⟩ | ⟨-, hnames⟩ | hlies
  · exact .inl (.inr (.inl (same_symm hsame)))
  · exact absurd hnames hother
  · exact .inr (.inl hlies)

include hid in
/-- The history lies in the directory of an identity of another workspace only if its own
workspace has its data among those of the other. -/
lemma keptAmong_of_history_liesIn_workspace
    (hlies : (a.child "history").LiesIn ((b.child "workspaces").child identity)) :
    b.KeptAmong a := by
  rw [child_liesIn_iff isName_history, child_same_child_iff isName_history
    (Identity.isName hid)] at hlies
  rcases hlies with ⟨hsame, -⟩ | hlies
  · exact .inr (.inl hsame)
  · exact .inr (.inr ⟨identity, hid, hlies⟩)

/-- Where neither workspace has its data among those of the other, all that they keep is
apart. -/
lemma apart_below (hab : a.same b = false) (hkept : ¬ a.KeptAmong b) (hkept' : ¬ b.KeptAmong a) :
    (below a).Apart (below b) := by
  have hba : b.same a = false := by
    rw [Bool.eq_false_iff] at hab ⊢
    exact fun h => hab (same_symm h)
  refine ⟨fun p q hp hq => ?_, fun p hp => ?_, fun q hq => ?_⟩
  · obtain ⟨identity, hid, rfl⟩ := isWorkspace_iff.mp hp
    obtain ⟨identity', hid', rfl⟩ := isWorkspace_iff.mp hq
    exact ⟨fun h => hkept' (keptAmong_of_workspace_liesIn_workspace hid hid' hab h),
      fun h => hkept (keptAmong_of_workspace_liesIn_workspace hid' hid hba h)⟩
  · obtain ⟨identity, hid, rfl⟩ := isWorkspace_iff.mp hp
    refine ⟨fun h => ?_, fun h => hkept (keptAmong_of_history_liesIn_workspace hid h)⟩
    exact (keptAmong_of_workspace_liesIn_history hid h).elim hkept hkept'
  · obtain ⟨identity, hid, rfl⟩ := isWorkspace_iff.mp hq
    refine ⟨fun h => ?_, fun h => hkept' (keptAmong_of_history_liesIn_workspace hid h)⟩
    exact (keptAmong_of_workspace_liesIn_history hid h).elim hkept' hkept

/-- Where the second workspace has its data among those of the first, something that the two
keep is not apart. -/
lemma not_apart_below (hkept : a.KeptAmong b) : ¬ (below a).Apart (below b) := by
  intro hapart
  have hhistory : Identity.validate "history" = .ok () := by decide
  have hworkspace : (below b).IsWorkspace ((b.child "workspaces").child "history") :=
    isWorkspace_iff.mpr ⟨"history", hhistory, rfl⟩
  -- What `b` keeps for an identity lies in `b`, so it lies where `b` lies.
  have hbelow : ((b.child "workspaces").child "history").LiesIn b :=
    (child_liesIn _ isName_history).trans (child_liesIn b isName_workspaces)
  rcases hkept with hlies | hsame | ⟨identity, hid, hlies⟩
  · exact (hapart.history_workspaces _ hworkspace).1 (hbelow.trans hlies)
  · have hsame' : (b.child "history").same ((a.child "workspaces").child "history") = true :=
      (child_same_child_iff isName_history isName_history).mpr ⟨hsame, rfl⟩
    exact (hapart.workspaces_history _ (isWorkspace_iff.mpr ⟨"history", hhistory, rfl⟩)).2
      (liesIn_of_same hsame')
  · exact (hapart.workspaces _ _ (isWorkspace_iff.mpr ⟨identity, hid, rfl⟩) hworkspace).2
      (hbelow.trans hlies)

end Below

end StoragePlaces

/-! ### Mirrored paths -/

/-- The second path goes below a base through the names that the first one goes through. -/
structure Path.Mirrors (base : List Component) (p a : Path) : Prop where
  absolute : p.isAbsolute = true
  mirror_absolute : a.isAbsolute = true
  names : ∃ cs, p.components = .root :: cs ∧ a.components = base ++ cs

namespace Path.Mirrors

variable {base : List Component} {p q a b : Path}

lemma child {s : String} (hp : Mirrors base p a) (hs : IsName (Text.utf8 s)) :
    Mirrors base (p.child s) (a.child s) := by
  obtain ⟨cs, hcs, hmirror⟩ := hp.names
  refine ⟨isAbsolute_child hp.absolute hs, isAbsolute_child hp.mirror_absolute hs,
    cs ++ [.name (Text.utf8 s)], ?_, ?_⟩
  · rw [components_child p hs, hcs, List.cons_append]
  · rw [components_child a hs, hmirror, List.append_assoc]

lemma same_iff (hp : Mirrors base p a) (hq : Mirrors base q b) : a.same b = p.same q := by
  obtain ⟨cs, hcs, hmirror⟩ := hp.names
  obtain ⟨ds, hds, hmirror'⟩ := hq.names
  rw [Bool.eq_iff_iff, Path.same_iff, Path.same_iff, hcs, hmirror, hds, hmirror',
    List.append_cancel_left_eq, List.cons.injEq, and_iff_right rfl]

lemma liesIn_iff (hp : Mirrors base p a) (hq : Mirrors base q b) : a.LiesIn b ↔ p.LiesIn q := by
  obtain ⟨cs, hcs, hmirror⟩ := hp.names
  obtain ⟨ds, hds, hmirror'⟩ := hq.names
  rw [LiesIn, LiesIn, hcs, hmirror, hds, hmirror', List.prefix_append_right_inj,
    List.cons_prefix_cons, and_iff_right rfl]

/-- Data are kept among others just where the paths of the workspaces say so. -/
lemma keptAmong_iff (hp : Mirrors base p a) (hq : Mirrors base q b) :
    a.KeptAmong b ↔ p.KeptAmong q := by
  have hidentity : (∃ identity, Identity.validate identity = .ok () ∧
        b.LiesIn ((a.child "workspaces").child identity))
      ↔ ∃ identity, Identity.validate identity = .ok () ∧
        q.LiesIn ((p.child "workspaces").child identity) := by
    refine exists_congr fun identity => and_congr_right fun hid => ?_
    exact hq.liesIn_iff ((hp.child isName_workspaces).child (Identity.isName hid))
  rw [KeptAmong, KeptAmong, hq.liesIn_iff (hp.child isName_history),
    hq.same_iff (hp.child isName_workspaces), hidentity]

end Path.Mirrors

/-- The data of a workspace mirror its full path. -/
lemma Host.mirrors_workspaceData {h : Host} {home workspace plain : Path}
    (hfiles : h.files.WellFormed) (hhome : h.dataHome? = some home)
    (habs : home.isAbsolute = true) (hplain : h.files.canonicalize workspace = .ok plain) :
    ∃ dir, h.workspaceData workspace = .ok dir ∧
      Mirrors (home.child programDirectory).components plain dir := by
  obtain ⟨names, rfl, hnames⟩ := FileSystem.canonicalize_ok hfiles hplain
  have hprogram := isAbsolute_child habs isName_programDirectory
  exact ⟨_, workspaceData_of hhome hplain hnames, rfl, (isAbsolute_joinAll _ hnames).trans hprogram,
    names.map .name, components_pathOf hnames, components_joinAll hprogram hnames⟩

/-! ### The theorem -/

section Theorem

variable {h : Host} {home workspace workspace' plain plain' : Path}

/-- **What two workspaces keep is apart unless the full path of one runs through the data of
the other.** Their workspaces directories and their histories are four different places. The
directories of all identities are apart from those of the other workspace and from its history
just when neither workspace has its data among those of the other. -/
theorem StorageSettings.places_apart_iff (hfiles : h.files.WellFormed)
    (hhome : h.dataHome? = some home) (habs : home.isAbsolute = true)
    (hplain : h.files.canonicalize workspace = .ok plain)
    (hplain' : h.files.canonicalize workspace' = .ok plain') (hne : plain ≠ plain') :
    ∃ s s', standard.places h workspace = .ok s ∧ standard.places h workspace' = .ok s' ∧
      s.Distinct s' ∧ (s.Apart s' ↔ ¬ plain.KeptAmong plain' ∧ ¬ plain'.KeptAmong plain) := by
  obtain ⟨a, ha, hmirror⟩ := Host.mirrors_workspaceData hfiles hhome habs hplain
  obtain ⟨b, hb, hmirror'⟩ := Host.mirrors_workspaceData hfiles hhome habs hplain'
  have hsame : plain.same plain' = false := by
    obtain ⟨names, rfl, hnames⟩ := FileSystem.canonicalize_ok hfiles hplain
    obtain ⟨names', rfl, hnames'⟩ := FileSystem.canonicalize_ok hfiles hplain'
    rw [Bool.eq_false_iff, ne_eq, same_iff, components_pathOf hnames, components_pathOf hnames']
    intro hcomponents
    have hmap : names.map Component.name = names'.map .name := List.tail_eq_of_cons_eq hcomponents
    exact hne (congrArg _ (List.map_injective_iff.mpr (fun _ _ => Component.name.inj) hmap))
  have hab : a.same b = false := (hmirror.same_iff hmirror').trans hsame
  refine ⟨_, _, places_standard ha, places_standard hb,
    StoragePlaces.distinct_below hab, ?_⟩
  rw [← hmirror.keptAmong_iff hmirror', ← hmirror'.keptAmong_iff hmirror]
  constructor
  · intro hapart
    exact ⟨fun hkept => StoragePlaces.not_apart_below hkept hapart,
      fun hkept => StoragePlaces.not_apart_below hkept hapart.symm⟩
  · rintro ⟨hkept, hkept'⟩
    exact StoragePlaces.apart_below hab hkept hkept'

/-- A workspace whose path does not even lie in `workspaces` or `history` of another one does
not have its data among those of the other. -/
lemma Path.not_keptAmong (hhistory : ¬ plain'.LiesIn (plain.child "history"))
    (hworkspaces : ¬ plain'.LiesIn (plain.child "workspaces")) : ¬ plain.KeptAmong plain' := by
  rintro (hlies | hsame | ⟨identity, hid, hlies⟩)
  · exact hhistory hlies
  · exact hworkspaces (liesIn_of_same hsame)
  · exact hworkspaces (hlies.trans (child_liesIn _ (Identity.isName hid)))

/-- A machine with a directory `/w` and a directory `v` in it, and `/d` for data. -/
def nestedWorkspaces : Host :=
  ⟨⟨[(Text.utf8 "w", .directory [(Text.utf8 "v", .directory [])])], []⟩,
    [("XDG_DATA_HOME", "/d")], ⟨0, 0⟩, []⟩

/-- The workspaces `/w` and `/w/v` keep their data apart, though one lies in the other. -/
theorem StorageSettings.places_apart_nested :
    ∃ s s', standard.places nestedWorkspaces (.ofText "/w") = .ok s ∧
      standard.places nestedWorkspaces (.ofText "/w/v") = .ok s' ∧ s.Distinct s' ∧ s.Apart s' := by
  have hempty : Entries.WellFormed [] := .intro (by decide) (by decide) (by simp)
  have hinner : Entries.WellFormed [(Text.utf8 "v", .directory [])] := by
    refine .intro (by decide) (by decide) fun name inner hmem => ?_
    obtain ⟨-, rfl⟩ : name = Text.utf8 "v" ∧ inner = [] := by simpa using hmem
    exact hempty
  have hfiles : nestedWorkspaces.files.WellFormed := by
    refine .intro (by decide) (by decide) fun name inner hmem => ?_
    obtain ⟨-, rfl⟩ : name = Text.utf8 "w" ∧ inner = [(Text.utf8 "v", .directory [])] := by
      simpa [nestedWorkspaces] using hmem
    exact hinner
  have hhome : nestedWorkspaces.dataHome? = some (.ofText "/d") := by decide
  have hplain : nestedWorkspaces.files.canonicalize (.ofText "/w") = .ok (.ofText "/w") := by cbv
  have hplain' : nestedWorkspaces.files.canonicalize (.ofText "/w/v") = .ok (.ofText "/w/v") := by
    cbv
  obtain ⟨s, s', hs, hs', hdistinct, hapart⟩ :=
    places_apart_iff hfiles hhome (by decide) hplain hplain' (by decide)
  refine ⟨s, s', hs, hs', hdistinct, hapart.mpr ⟨?_, ?_⟩⟩
  · exact Path.not_keptAmong (by decide) (by decide)
  · exact Path.not_keptAmong (by decide) (by decide)

end Theorem

end TreeDigest
