import TreeDigest.Proofs.FileSystem.Limits
import TreeDigest.Proofs.FileSystem.Without

/-!
Links that lead nowhere.

A lookup that finds something has not followed a link that leads nowhere. So a file system without
its dangling links shows everything else as it is, and what is looked up is found in it.

* `dangles` says which places hold a link that leads nowhere, however many links may be followed.
* `not_dangles_of_found`: nothing is found past such a link.
* `resolve_withoutDangling`: what a path leads to, it leads to without the dangling links.
* `dangles_of_entry` and `node_of_dangles` say when a listed link is one of them.
-/

namespace TreeDigest

namespace FileSystem

open TreeDigest.Path

instance : DecidablePred Nothing
  | .ok (.vacant _ _) => isTrue trivial
  | .ok (.directory _) => isFalse id
  | .ok (.other _ _ _) => isFalse id
  | .error e => inferInstanceAs (Decidable (e = .noEntry))

/-- A place that holds a link whose target leads to nothing. -/
def dangles (fs : FileSystem) (place : List Bytes) : Bool :=
  match fs.trailOf? place.dropLast, place.getLast? with
  | some t, some name => match (fs.entriesAt t).find? name with
    | some (.link target) =>
      decide (Nothing (fs.legs true maxLinks (linkStart t target) (segments ⟨target⟩)))
    | _ => false
  | _, _ => false

variable {fs : FileSystem} {t t' : Trail} {name : Bytes} {names more : List Bytes} {links : ℕ}

lemma dangles_iff (ht : t.Valid fs) : fs.dangles (t.names ++ [name]) = true ↔
    ∃ target, (fs.entriesAt t).find? name = some (.link target)
      ∧ Nothing (fs.legs true maxLinks (linkStart t target) (segments ⟨target⟩)) := by
  rw [dangles, List.dropLast_concat, List.getLast?_concat, trailOf?_names ht]
  dsimp only
  split
  · next target hfind => simp [hfind]
  · next hother =>
      constructor
      · exact nofun
      · rintro ⟨target, hfind, -⟩
        exact absurd hfind (hother target)

/-! ### Nothing is found past a dangling link -/

/-- Names after which more are taken lead to a directory. -/
lemma directory_of_legs_append {follow : Bool} {place : Place} (hmore : more ≠ [])
    (hp : fs.legs follow links t (names ++ more) = .ok place) :
    ∃ t', fs.legs true links t names = .ok (.directory t') := by
  generalize hall : names ++ more = all at hp
  induction hp using legs_ok_induction generalizing names with
  | arrived links t all hl =>
      subst hall
      obtain ⟨t', hfirst, -⟩ | ⟨_, _, _, -, hlink⟩ := leg_append_ok hmore hl
      · exact ⟨t', legs_arrived hfirst links⟩
      · cases hlink
  | link links t all t' target rest hl _ ih =>
      subst hall
      obtain ⟨t'', hfirst, -⟩ | ⟨_, _, rest', hfirst, hlink⟩ := leg_append_ok hmore hl
      · exact ⟨t'', legs_arrived hfirst _⟩
      · obtain ⟨rfl, rfl, rfl⟩ := Leg.link.inj hlink
        obtain ⟨t'', ht''⟩ := ih (List.append_assoc _ _ _)
        exact ⟨t'', (legs_link hfirst links).trans ht''⟩

/-- A lookup that comes to nothing comes to nothing with fewer links, or has too few. -/
lemma nothing_of_legs {follow : Bool} {links' : ℕ} (hlinks : links ≤ links')
    (hnone : Nothing (fs.legs follow links' t names)) :
    fs.legs follow links t names = .error .tooManyLinks
      ∨ Nothing (fs.legs follow links t names) := by
  obtain ⟨more, rfl⟩ := Nat.exists_eq_add_of_le hlinks
  obtain hfew | hsame : fs.legs follow links t names = _ ∨ _ := legs_more follow links more t names
  · exact .inl hfew
  · exact .inr (hsame ▸ hnone)

/-- The entries that are passed up to the next link: only the last may be a link. -/
lemma leg_of_dangles (ht : t.Valid fs) {q : List Bytes} (hq : q ∈ fs.legPasses t names)
    (hdangles : fs.dangles q = true) : ∃ t' target rest,
      fs.leg true t names = .ok (.link t' target rest)
        ∧ Nothing (fs.legs true maxLinks (linkStart t' target) (segments ⟨target⟩)) := by
  induction names generalizing t with
  | nil => simp [legPasses] at hq
  | cons name rest ih =>
      rw [legPasses] at hq
      rw [leg]
      by_cases hskip : name = [] ∨ name = [dot]
      · simp only [if_pos hskip] at hq ⊢
        exact ih ht hq
      simp only [if_neg hskip] at hq ⊢
      by_cases hup : name = [dot, dot]
      · simp only [if_pos hup] at hq ⊢
        exact ih ht.tail hq
      simp only [if_neg hup] at hq ⊢
      by_cases hlong : maxName < name.length
      · simp [hlong] at hq
      simp only [if_neg hlong] at hq ⊢
      obtain rfl | hq := List.mem_cons.mp hq
      · obtain ⟨target, hfind, hnone⟩ := (dangles_iff ht).mp hdangles
        exact ⟨t, target, rest, by simp [hfind], hnone⟩
      · cases hfind : (fs.entriesAt t).find? name with
        | none => simp [hfind] at hq
        | some n =>
            cases n with
            | directory es =>
                rw [hfind] at hq
                exact ih ⟨hfind, ht⟩ hq
            | file | link | special => simp [hfind] at hq

/-- **Names that lead to something pass no dangling link.** -/
lemma not_dangles_of_legs (ht : t.Valid fs) (hlinks : links ≤ maxLinks) {place : Place}
    (hp : fs.legs true links t names = .ok place) (hfound : ∀ u x, place ≠ .vacant u x) :
    ∀ q ∈ fs.passes true links t names, ¬ fs.dangles q = true := by
  intro q hq hdangles
  induction hp using legs_ok_induction with
  | arrived links t names hl =>
      obtain hq | ⟨_, _, _, _, _, hlink, _⟩ := mem_passes hq
      · obtain ⟨_, _, _, hlink, -⟩ := leg_of_dangles ht hq hdangles
        simp [hl] at hlink
      · simp [hl] at hlink
  | link links t names t' target rest hl hp ih =>
      obtain hq | ⟨left, _, _, _, hleft, hlink, hq⟩ := mem_passes hq
      · obtain ⟨_, _, _, hlink, hnone⟩ := leg_of_dangles ht hq hdangles
        obtain ⟨rfl, rfl, rfl⟩ := Leg.link.inj (Except.ok.inj (hl.symm.trans hlink))
        -- What follows the target goes on from where that leads, and it leads nowhere.
        have htarget : ∃ place', fs.legs true links (linkStart t' target) (segments ⟨target⟩)
            = .ok place' ∧ ∀ u x, place' ≠ .vacant u x := by
          by_cases hrest : rest = []
          · rw [hrest, List.append_nil] at hp
            exact ⟨place, hp, hfound⟩
          · obtain ⟨u, hu⟩ := directory_of_legs_append hrest hp
            exact ⟨_, hu, by simp⟩
        obtain ⟨place', hplace', hfound'⟩ := htarget
        obtain hfew | hnone := nothing_of_legs (Nat.le_of_succ_le hlinks) hnone
        · simp [hplace'] at hfew
        · rw [hplace'] at hnone
          cases place' with
          | vacant u x => exact hfound' u x rfl
          | directory | other => exact hnone
      · obtain rfl : links = left := Nat.succ.inj hleft
        obtain ⟨rfl, rfl, rfl⟩ := Leg.link.inj (Except.ok.inj (hl.symm.trans hlink))
        exact ih (linkStart_valid (leg_valid ht hl) target) (Nat.le_of_succ_le hlinks) hq

/-- **Nothing is found past a dangling link.** -/
theorem not_dangles_of_found {p : Path} {place : Place} (hp : fs.resolve true p = .ok place)
    (hfound : ∀ u x, place ≠ .vacant u x) : ∀ q ∈ fs.passesOf p, ¬ fs.dangles q = true := by
  obtain ⟨-, start, hstart, hlegs⟩ := resolve_ok hp
  rw [passesOf, hstart]
  exact not_dangles_of_legs (startOf_valid hstart) le_rfl hlegs hfound

/-! ### Without the dangling links -/

/-- A file system without its dangling links. -/
def withoutDangling (fs : FileSystem) : FileSystem := fs.without fs.dangles

/-- The names along a directory's trail pass no dangling link. -/
lemma not_dangles_of_trailOf? (ht : fs.trailOf? names = some t) {q : List Bytes}
    (hq : q <+: names) : ¬ fs.dangles q = true := by
  obtain ⟨more, rfl⟩ := hq
  -- Going along all the names, each of them has been found to be a directory.
  induction more using List.reverseRecOn generalizing t with
  | nil =>
      rw [List.append_nil] at ht
      obtain rfl | ⟨names, name, rfl⟩ := List.eq_nil_or_concat' q
      · simp [dangles]
      · rw [trailOf?_append, Option.bind_eq_some_iff] at ht
        obtain ⟨u, hu, hfind⟩ := ht
        intro hdangles
        rw [← names_of_trailOf? hu, dangles_iff (trailOf?_valid hu)] at hdangles
        obtain ⟨target, hlink, -⟩ := hdangles
        simp [hlink] at hfind
  | append_singleton more name ih =>
      rw [← List.append_assoc, trailOf?_append, Option.bind_eq_some_iff] at ht
      obtain ⟨u, hu, -⟩ := ht
      exact ih hu

/-- The current directory is found without the dangling links. -/
lemma currentTrail_withoutDangling (ht : fs.currentTrail = .ok t) :
    fs.withoutDangling.currentTrail = .ok (t.without fs.dangles) := by
  have htrail : fs.trailOf? fs.current = some t := by
    rw [currentTrail] at ht
    split at ht
    · next hsome => rw [hsome, Except.ok.inj ht]
    · cases ht
  have hstep := (lockstep_without_self fs.dangles fs).currentTrail rfl fun q hq =>
    not_dangles_of_trailOf? htrail hq
  rw [ht] at hstep
  obtain ⟨t', ht', rfl⟩ := hstep.exists_of_ok_left
  exact ht'

lemma currentPath_withoutDangling {q : Path} (hq : fs.currentPath = .ok q) :
    fs.withoutDangling.currentPath = .ok q := by
  rw [currentPath] at hq ⊢
  cases htrail : fs.currentTrail with
  | error e => simp [htrail, Except.map] at hq
  | ok t =>
      rw [currentTrail_withoutDangling htrail]
      simpa [htrail, Except.map] using hq

section Found

variable {p : Path} {place : Place}

/-- **What a path leads to, it leads to without the dangling links.** -/
theorem resolve_withoutDangling (hp : fs.resolve true p = .ok place)
    (hfound : ∀ u x, place ≠ .vacant u x) (follow : Bool) :
    InStep (Place.Same (fun t t' => t' = t.without fs.dangles) (fs.dangles · = true))
      (fs.resolve follow p) (fs.withoutDangling.resolve follow p) := by
  refine (lockstep_without_self fs.dangles fs).resolve follow ?_ (not_dangles_of_found hp hfound)
  obtain ⟨-, start, hstart, -⟩ := resolve_ok hp
  rw [startOf] at hstart
  rw [startOf, startOf]
  split
  · exact .ok rfl
  · next hrelative =>
      rw [if_neg hrelative] at hstart
      rw [hstart, ← withoutDangling, currentTrail_withoutDangling hstart]
      exact .ok rfl

/-- What is found, is found at a place. -/
lemma resolve_of_node {follow : Bool} {n : Node} (hn : fs.node follow p = .ok n) :
    ∃ place, fs.resolve follow p = .ok place ∧ ∀ u x, place ≠ .vacant u x := by
  obtain ⟨place, hplace, hnode⟩ := node_ok_iff.mp hn
  refine ⟨place, hplace, ?_⟩
  rintro u x rfl
  cases hnode

/-- **What a path names, it names without the dangling links.** -/
lemma node_withoutDangling {n : Node} (hn : fs.node true p = .ok n) (follow : Bool) :
    InStep (fun n n' => ∃ here, n' = n.without fs.dangles here)
      (fs.node follow p) (fs.withoutDangling.node follow p) := by
  obtain ⟨place, hplace, hfound⟩ := resolve_of_node hn
  exact node_without_of_resolve (resolve_withoutDangling hplace hfound follow)

lemma read_withoutDangling {n : Node} (hn : fs.node true p = .ok n) :
    fs.withoutDangling.read p = fs.read p := by
  obtain ⟨place, hplace, hfound⟩ := resolve_of_node hn
  exact (read_of_leads (leads_of_resolve (resolve_withoutDangling hplace hfound true))).symm

lemma canonicalize_withoutDangling {q : Path} (hp : fs.canonicalize p = .ok q) :
    fs.withoutDangling.canonicalize p = .ok q := by
  obtain ⟨n, hnode⟩ := canonicalize_ok_iff.mp ⟨q, hp⟩
  obtain ⟨place, hplace, hfound⟩ := resolve_of_node hnode
  rw [← hp]
  exact ((lockstep_without_self fs.dangles fs).canonicalize
    (resolve_withoutDangling hplace hfound true)).symm

/-- **A directory lists what it listed**, with its dangling links left out. -/
lemma list_withoutDangling (hp : fs.resolve true p = .ok (.directory t)) :
    fs.withoutDangling.list p = .ok (((fs.entriesAt t).map fun e => (e.1, e.2.kind)).filter
      fun a => !fs.dangles (t.names ++ [a.1])) := by
  have hstep := resolve_withoutDangling hp nofun true
  rw [hp] at hstep
  obtain ⟨place, hplace, hsame⟩ := hstep.exists_of_ok_left
  cases hsame with
  | directory ht =>
      rw [list_of_directory (node_of_resolve hplace rfl), ht, withoutDangling, entriesAt_without,
        Entries.map_kind_without]

end Found

/-! ### Which entries dangle -/

/-- Of the failures of a lookup only one says that something is not there. -/
lemma eq_noEntry_of_isNotFound {follow : Bool} {e : IoError}
    (he : fs.legs follow links t names = .error e) (hgone : e.isNotFound = true) :
    e = .noEntry := by
  have hleg : ∀ (t : Trail) (names : List Bytes), fs.leg follow t names = .error e →
      e = .noEntry := by
    intro t names hl
    fun_induction leg fs follow t names with
    | case1 => cases hl
    | case2 _ _ _ _ ih => exact ih hl
    | case3 _ _ _ ih => exact ih hl
    | case4 =>
        obtain rfl := Except.error.inj hl
        cases hgone
    | case5 _ _ _ _ _ _ _ _ ih => exact ih hl
    | case6 | case7 | case8 | case10 => cases hl
    | case9 =>
        obtain rfl := Except.error.inj hl
        cases hgone
    | case11 => exact (Except.error.inj hl).symm
  induction he using legs_error_induction with
  | names_fail links t names hl => exact hleg t names hl
  | no_link_left _ _ _ _ _ _ he =>
      subst he
      cases hgone
  | link _ _ _ _ _ _ _ _ ih => exact ih

section Entry

variable {p : Path} {n : Node}

/-- How the link `name` in the directory at `p` is looked up: with too few links, or by its
target. -/
lemma node_link (hfs : fs.WellFormed) (hp : fs.resolve true p = .ok (.directory t)) {target : Bytes}
    (hmem : (name, .link target) ∈ fs.entriesAt t) :
    (∃ e, fs.node true (p.join ⟨name⟩) = .error e ∧ e.isLimit = true)
      ∨ ∃ links ≤ maxLinks, fs.resolve true (p.join ⟨name⟩)
        = fs.legs true links (linkStart t target) (segments ⟨target⟩) := by
  have hes := wellFormed_of_node hfs (node_of_resolve hp rfl)
  have hname := hes.isName hmem
  obtain ⟨left, hle, hlook⟩ := resolve_joinAll hp
  rw [show p.join ⟨name⟩ = p.joinAll [name] from rfl]
  obtain hlong | hlook := hlook [name] (by simp) (by simpa using hname)
  · exact .inl ⟨_, by rw [node_eq, hlong, Except.bind], rfl⟩
  by_cases hshort : maxName < name.length
  · exact .inl ⟨_, by rw [node_eq, hlook, legs_long hname hshort, Except.bind, Except.bind], rfl⟩
  have hskip : ¬ (name = [] ∨ name = [dot]) := by simp [hname.nonempty, hname.notDot]
  have hl : fs.leg true t [name] = .ok (.link t target []) := by
    simp [leg, hskip, hname.notDots, hshort, hes.find?_eq hmem]
  cases left with
  | zero => exact .inl ⟨_, by rw [node_eq, hlook, legs_link_zero hl, Except.bind, Except.bind], rfl⟩
  | succ links =>
      refine .inr ⟨links, Nat.le_of_succ_le hle, ?_⟩
      rw [hlook, legs_link hl, List.append_nil]
      rcases fs.legs true links (linkStart t target) (segments ⟨target⟩) with _ | _ | _ | _ <;> rfl

/-- **A listed link that cannot be found is a dangling one.** -/
lemma dangles_of_entry (hfs : fs.WellFormed) (hp : fs.resolve true p = .ok (.directory t))
    {target : Bytes} (hmem : (name, .link target) ∈ fs.entriesAt t) {e : IoError}
    (hnode : fs.node true (p.join ⟨name⟩) = .error e) (hgone : e.isNotFound = true) :
    fs.dangles (t.names ++ [name]) = true := by
  have ht : t.Valid fs := resolve_valid hp
  refine (dangles_iff ht).mpr ⟨target, (ht.wellFormed hfs).find?_eq hmem, ?_⟩
  obtain ⟨e', he', hlimit⟩ | ⟨links, hle, hlook⟩ := node_link hfs hp hmem
  · obtain rfl := Except.error.inj (hnode.symm.trans he')
    exact absurd hlimit (by simp [IoError.isLimit_of_isNotFound hgone])
  · -- With all the links that may be followed, nothing else is found.
    rw [node_eq, hlook] at hnode
    obtain ⟨more, hmore⟩ := Nat.exists_eq_add_of_le hle
    obtain hfew | hsame : fs.legs true links (linkStart t target) (segments ⟨target⟩) = _ ∨ _ :=
      legs_more true links more _ _
    · rw [hfew] at hnode
      obtain rfl := Except.error.inj hnode
      cases hgone
    · rw [hmore, hsame]
      match hlegs : fs.legs true links (linkStart t target) (segments ⟨target⟩) with
      | .error e' =>
          rw [hlegs] at hnode
          obtain rfl := Except.error.inj hnode
          exact eq_noEntry_of_isNotFound hlegs hgone
      | .ok (.vacant _ _) => trivial
      | .ok (.directory _) | .ok (.other _ _ _) => simp [hlegs, Except.bind, Place.node?] at hnode

/-- **A dangling entry is a link that is not found**, or not within the limits of a lookup. -/
lemma node_of_dangles (hfs : fs.WellFormed) (hp : fs.resolve true p = .ok (.directory t))
    (hmem : (name, n) ∈ fs.entriesAt t) (hdangles : fs.dangles (t.names ++ [name]) = true) :
    n.kind = .link ∧ ∃ e, fs.node true (p.join ⟨name⟩) = .error e := by
  have ht : t.Valid fs := resolve_valid hp
  obtain ⟨target, hfind, hnone⟩ := (dangles_iff ht).mp hdangles
  obtain rfl := Option.some.inj (((ht.wellFormed hfs).find?_eq hmem).symm.trans hfind)
  refine ⟨rfl, ?_⟩
  obtain ⟨e, he, -⟩ | ⟨links, hle, hlook⟩ := node_link hfs hp hmem
  · exact ⟨e, he⟩
  · rw [node_eq, hlook]
    obtain hfew | hnone := nothing_of_legs hle hnone
    · exact ⟨_, by rw [hfew, Except.bind]⟩
    · match fs.legs true links (linkStart t target) (segments ⟨target⟩), hnone with
      | .error e, _ => exact ⟨e, rfl⟩
      | .ok (.vacant _ _), _ => exact ⟨.noEntry, rfl⟩

end Entry

end FileSystem

end TreeDigest
