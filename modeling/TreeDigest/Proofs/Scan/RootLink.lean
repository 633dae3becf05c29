import TreeDigest.Proofs.FileSystem.Aside
import TreeDigest.Proofs.Scan.Relocation
import TreeDigest.Proofs.Scan.Subtree

/-!
Scanning through a link.

A root that is a link is walked where the link leads to, and recorded under its own path. A scan of
the link and a scan of the path that it leads to walk the same path, so they differ only in what
they record.

* `FileSystem.getLast?_steps_of_isLink`: a path that names a link ends in a name.
* `RootLocation.resolve_link` and `RootLocation.resolve_canonical` are the roots of the two scans.
* `scanWith_of_isLink`: the scans have the same counters, and their snapshots match node by node.
-/

namespace TreeDigest

/-! ### Paths of links -/

namespace FileSystem

variable {fs : FileSystem}

/-- What is left behind a link that is to be followed is the end of the names, and not nothing. -/
lemma suffix_of_leg_link {trail t : Trail} {names rest : List Bytes} {target : Bytes}
    (hl : fs.leg false trail names = .ok (.link t target rest)) : rest ≠ [] ∧ rest <:+ names := by
  have hbehind : ∀ {name : Bytes} {names : List Bytes}, rest ≠ [] ∧ rest <:+ names →
      rest ≠ [] ∧ rest <:+ name :: names :=
    fun ⟨hne, hend⟩ => ⟨hne, hend.trans (List.suffix_cons _ _)⟩
  fun_induction leg fs false trail names with
  | case1 | case4 | case6 | case8 | case9 | case10 | case11 => simp at hl
  | case2 trail name rest hskip ih => exact hbehind (ih hl)
  | case3 trail rest hskip ih => exact hbehind (ih hl)
  | case5 trail name rest hskip hdots hlong es hfind ih => exact hbehind (ih hl)
  | case7 trail name more hskip hdots hlong target' hfind hstop =>
      obtain ⟨rfl, rfl, rfl⟩ : trail = t ∧ target' = target ∧ more = rest := by simpa using hl
      exact hbehind ⟨by simpa using hstop, List.suffix_rfl⟩

/-- A lookup that arrives at a link has taken its name last. -/
lemma suffix_of_leg_arrived {trail t : Trail} {names : List Bytes} {name target : Bytes}
    (hl : fs.leg false trail names = .ok (.arrived (.other t name (.link target)))) :
    [name] <:+ names ∧ Path.component? name = some (.name name) := by
  have hbehind : ∀ {name' : Bytes} {names : List Bytes},
      [name] <:+ names ∧ Path.component? name = some (.name name) →
      [name] <:+ name' :: names ∧ Path.component? name = some (.name name) :=
    fun ⟨hend, hname⟩ => ⟨hend.trans (List.suffix_cons _ _), hname⟩
  fun_induction leg fs false trail names with
  | case1 | case4 | case7 | case9 | case10 | case11 => simp at hl
  | case2 trail name' rest hskip ih => exact hbehind (ih hl)
  | case3 trail rest hskip ih => exact hbehind (ih hl)
  | case5 trail name' rest hskip hdots hlong es hfind ih => exact hbehind (ih hl)
  | case6 trail name' rest hskip hdots hlong target' hfind hstop =>
      obtain ⟨-, rfl, -⟩ : trail = t ∧ name' = name ∧ target' = target := by simpa using hl
      obtain rfl : rest = [] := by simpa using hstop
      exact ⟨List.suffix_rfl, by rw [Path.component?, if_neg hskip, if_neg hdots]⟩
  | case8 trail name' hskip hdots hlong node hdir hlink hfind =>
      obtain ⟨-, -, rfl⟩ : trail = t ∧ name' = name ∧ node = .link target := by simpa using hl
      exact absurd rfl (hlink target)

/-- The same through any number of links: the last one that is followed has names behind it, so the
link that is arrived at is still the last name of the path. -/
lemma suffix_of_legs {links : Nat} {trail t : Trail} {names : List Bytes} {name target : Bytes}
    (hp : fs.legs false links trail names = .ok (.other t name (.link target))) :
    [name] <:+ names ∧ Path.component? name = some (.name name) := by
  induction hp using legs_ok_induction with
  | arrived links trail names hl => exact suffix_of_leg_arrived hl
  | link links trail names t target rest hl _ ih =>
      obtain ⟨hne, hend⟩ := suffix_of_leg_link hl
      obtain ⟨hlast, hname⟩ := ih
      have hrest : [name] <:+ rest :=
        List.suffix_of_suffix_length_le hlast (List.suffix_append _ _)
          (List.length_pos_of_ne_nil hne)
      exact ⟨hrest.trans hend, hname⟩

/-- **A path that names a link** can be looked up, does not end in a slash, and its last name is that
of the link. -/
lemma getLast?_steps_of_isLink {p : Path} (hp : fs.isLink p = true) :
    Acceptable p ∧ closed p = false ∧ ∃ name, p.steps.getLast? = some name
      ∧ Path.component? name = some (.name name) := by
  obtain ⟨target, hnode⟩ := isLink_iff.mp hp
  obtain ⟨place, hres, hnode⟩ := node_ok_iff.mp hnode
  obtain ⟨hacc, start, hstart, hlegs⟩ := resolve_ok hres
  cases place with
  | directory trail | vacant trail name => cases hnode
  | other trail name node =>
      obtain rfl := Option.some.inj hnode
      cases hclosed : closed p with
      | true =>
          rw [hclosed] at hlegs
          exact absurd rfl (legs_true_kind hlegs)
      | false =>
          rw [hclosed] at hlegs
          obtain ⟨⟨before, hbefore⟩, hname⟩ := suffix_of_legs hlegs
          exact ⟨hacc, rfl, name, List.getLast?_eq_some_iff.mpr ⟨before, hbefore.symm⟩, hname⟩

end FileSystem

/-! ### The roots of the two scans -/

namespace Path

/-- A relative path that goes through no name is empty. -/
lemma bytes_eq_nil_of_steps {p : Path} (hp : p.isAbsolute = false) (hsteps : p.steps = []) :
    p.bytes = [] := by
  obtain ⟨bytes⟩ := p
  cases bytes with
  | nil => rfl
  | cons b rest =>
      have hb : b ≠ slash := by simpa [isAbsolute] using hp
      rw [steps, segments, Text.splitOn, if_neg hb] at hsteps
      cases hrest : Text.splitOn slash rest with
      | nil => exact absurd hrest (Text.splitOn_ne_nil slash rest)
      | cons part parts => simp [hrest] at hsteps

end Path

namespace RootLocation

variable {fs : FileSystem} {p a q : Path}

/-- What the absolute form of a path goes through: the current directory comes before a relative
path, and it does not climb. -/
lemma steps_of_absolute (hfs : fs.WellFormed) (ha : absolute fs p = .ok a) :
    ∃ names, (∀ name ∈ names, Path.IsName name) ∧ a.steps = names ++ p.steps := by
  rcases absolute_ok ha with ⟨-, rfl⟩ | ⟨habs, t, ht, rfl⟩
  · exact ⟨[], by simp, rfl⟩
  · have hstart : fs.startOf p = .ok t := by rw [FileSystem.startOf, habs]; exact ht
    have hnames := (FileSystem.startOf_valid hstart).isName hfs
    have hne : (FileSystem.pathOf t.names).bytes ≠ [] := by simp [FileSystem.pathOf]
    exact ⟨t.names, hnames, by rw [Path.steps_join_relative hne habs, Path.steps_pathOf hnames]⟩

/-- The absolute form of a path climbs just where the path does. -/
lemma climbs_of_absolute (hfs : fs.WellFormed) (ha : absolute fs p = .ok a) :
    a.climbs = p.climbs := by
  obtain ⟨names, hnames, hsteps⟩ := steps_of_absolute hfs ha
  have hdots : [dot, dot] ∉ names := fun hmem => (hnames _ hmem).notDots rfl
  rw [Bool.eq_iff_iff, Path.climbs_iff, Path.climbs_iff, hsteps, List.mem_append]
  simp [hdots]

/-- A path that names a link ends in the name of the link. -/
lemma getLast?_steps_of_absolute (hfs : fs.WellFormed) (ha : absolute fs p = .ok a)
    (hlink : fs.isLink a = true) : ∃ name, a.steps.getLast? = some name
      ∧ p.steps.getLast? = some name ∧ Path.component? name = some (.name name) := by
  obtain ⟨-, hopen, name, hlast, hname⟩ := FileSystem.getLast?_steps_of_isLink hlink
  refine ⟨name, hlast, ?_, hname⟩
  rcases absolute_ok ha with ⟨-, rfl⟩ | ⟨habs, t, ht, rfl⟩
  · exact hlast
  -- An empty path would lead to the current directory, with a slash at the end.
  have hsteps : p.steps ≠ [] := by
    intro hsteps
    have hempty := Path.bytes_eq_nil_of_steps habs hsteps
    have hne : (FileSystem.pathOf t.names).bytes ≠ [] := by simp [FileSystem.pathOf]
    have hbytes := Path.bytes_join (p := FileSystem.pathOf t.names) habs
    have hclosed : ((FileSystem.pathOf t.names).join p).bytes.getLast? = some slash := by
      rw [hbytes, hempty, List.append_nil]
      by_cases hends : (FileSystem.pathOf t.names).bytes.getLast? = some slash
      · rw [if_pos (.inr hends), List.append_nil, hends]
      · rw [if_neg (not_or.mpr ⟨hne, hends⟩)]
        simp
    simp [FileSystem.closed, hclosed] at hopen
  obtain ⟨names, -, hall⟩ := steps_of_absolute hfs ha
  rwa [hall, List.getLast?_append_of_ne_nil _ hsteps] at hlast

/-- **The root of a scan of a link**: it is walked where the link leads to, and recorded under its
own path and name. -/
theorem resolve_link (hfs : fs.WellFormed) (hclimbs : p.climbs = false)
    (ha : absolute fs p = .ok a) (hlink : fs.isLink a = true) (hq : fs.canonicalize a = .ok q) :
    resolve fs p = .ok ⟨q, a.plain, p.entryName, .viaSymlink⟩ ∧ a.plain.bytes ≠ [] := by
  have habs := isAbsolute_of_absolute ha
  have hclimbs' := (climbs_of_absolute hfs ha).trans hclimbs
  obtain ⟨hacc, -, -⟩ := FileSystem.getLast?_steps_of_isLink hlink
  obtain ⟨name, hlast, hlast', hname⟩ := getLast?_steps_of_absolute hfs ha hlink
  obtain ⟨hnames, -⟩ := Path.components_of_not_climbs habs hclimbs' hacc.noNul
  have hplain := Path.plain_of_not_climbs habs hclimbs' hacc.noNul
  have hlastPlain : a.plain.steps.getLast? = some name := by
    obtain ⟨before, hbefore⟩ := List.getLast?_eq_some_iff.mp hlast
    have hdot : name ≠ [dot] := by
      rintro rfl
      simp [Path.component?] at hname
    rw [hplain, Path.steps_pathOf hnames, hbefore, List.filter_append]
    simp [hdot]
  have hentry : a.plain.entryName = p.entryName := by
    rw [Path.entryName, Path.entryName, Path.fileName?_of_getLast?_steps hlastPlain hname,
      Path.fileName?_of_getLast?_steps hlast' hname]
  refine ⟨?_, by simp [hplain, FileSystem.pathOf]⟩
  simp only [resolve, ha, hq, hclimbs', hlink, hentry, bind, Except.bind, pure, Except.pure,
    Bool.false_eq_true, if_false]
  rfl

/-- **The root of a scan of a plain path** that leads somewhere is walked and recorded under it. -/
theorem resolve_canonical (hfs : fs.WellFormed) (hq : fs.canonicalize a = .ok q) :
    resolve fs q = .ok ⟨q, q, q.entryName, .direct⟩ ∧ q.isAbsolute = true := by
  obtain ⟨n, -, hkind, hstands⟩ := FileSystem.stands_canonicalize hfs hq
  obtain ⟨names, hpath, hnames⟩ := FileSystem.canonicalize_ok hfs hq
  obtain ⟨place, m, hplace, hm, hplain⟩ := FileSystem.canonicalize_eq_ok_iff.mp hq
  have habs : q.isAbsolute = true := by rw [hpath]; rfl
  have hnul : 0 ∉ q.bytes := hpath ▸ Path.nul_notMem_pathOf hnames
  have hclimbs : q.climbs = false := by
    rw [← Bool.not_eq_true, Path.climbs_iff, hpath, Path.steps_pathOf hnames]
    exact fun hdots => (hnames _ hdots).notDots rfl
  have hlink : fs.isLink q = false := by
    rcases hstands with hlong | ⟨hnode, -⟩
    · rw [FileSystem.isLink, hlong]
    · rw [FileSystem.isLink, hnode]
      cases n with
      | link target => exact absurd rfl hkind
      | _ => rfl
  -- The path leads to the same place again, unless it is too long to be looked up.
  have hagain : (fs.canonicalize q).toOption.getD q = q := by
    have hlimits := FileSystem.resolve_pathOf_upToLimits hfs hplace (by rintro t x rfl; cases hm)
    rw [← hplain] at hlimits
    rw [FileSystem.canonicalize_eq]
    cases hres : fs.resolve true q with
    | error e => rfl
    | ok place' =>
        rw [hres] at hlimits
        obtain rfl := hlimits.eq_of_ok
        rw [Except.bind, hplain]
        cases place' with
        | vacant => cases hm
        | directory | other => rfl
  refine ⟨?_, habs⟩
  have hself : q.plain = q := by rw [hpath, Path.plain_pathOf hnames]
  simp only [resolve, absolute, habs, hagain, hclimbs, hlink, hself, bind, Except.bind, pure,
    Except.pure, if_true, Bool.false_eq_true, if_false]
  rfl

end RootLocation

/-! ### The two scans -/

/-- **A link to the root changes only what is recorded.** Let a well-formed file system not change,
and let a path that does not climb name a link, which leads to the plain path `q` through any number
of links. Then the scans of the path and of `q` both succeed or both fail. If they succeed, they have
the same counters and hashed the same messages, and their snapshots match node by node: digests,
kinds, facts and children are the same everywhere, names and access below the root; the root of the
first has the name of the path and was reached through a link, and each node has the recorded text of
the path, in its plain absolute form, with the names that lead to the node, instead of that of `q`
with these names. -/
theorem scanWith_of_isLink {options : ScanOptions} {hash : HashFunction} {hasher : LeafHasher}
    {files : FileSystem} (hfiles : files.WellFormed)
    (hstill : ∀ path, (hasher path files).files = files) {p a q : Path}
    (hclimbs : p.climbs = false) (ha : RootLocation.absolute files p = .ok a)
    (hlink : files.isLink a = true) (hq : files.canonicalize a = .ok q) :
    (scanWith options hash hasher files p).isOk = (scanWith options hash hasher files q).isOk
      ∧ ∀ x y, scanWith options hash hasher files p = .ok x →
        scanWith options hash hasher files q = .ok y →
        x.outcome.counts = y.outcome.counts ∧ x.messages = y.messages
          ∧ Option.Rel (Snapshot.Moved (RootLocation.Told files
              ⟨q, a.plain, p.entryName, .viaSymlink⟩ ⟨q, q, q.entryName, .direct⟩) [])
            x.outcome.snapshot y.outcome.snapshot := by
  obtain ⟨hp, hplain⟩ := RootLocation.resolve_link hfiles hclimbs ha hlink hq
  obtain ⟨hq, habs⟩ := RootLocation.resolve_canonical hfiles hq
  let v : Survey := ⟨options, hash, hasher, ⟨q, a.plain, p.entryName, .viaSymlink⟩, files, hstill⟩
  have hrerooted : v.Rerooted ⟨q, q, q.entryName, .direct⟩ :=
    ⟨hfiles, rfl, habs, hplain, Path.ne_nil_of_isAbsolute habs⟩
  rcases hrerooted.scans_abreast hp hq with ⟨e, e', he, he'⟩ | ⟨x, y, hx, hy, hmoved⟩
  · have he : scanWith options hash hasher files p = .error e := he
    have he' : scanWith options hash hasher files q = .error e' := he'
    rw [he, he']
    exact ⟨rfl, nofun⟩
  · have hx : scanWith options hash hasher files p = .ok x := hx
    have hy : scanWith options hash hasher files q = .ok y := hy
    rw [hx, hy]
    refine ⟨rfl, fun x' y' hx' hy' => ?_⟩
    obtain rfl := Except.ok.inj hx'
    obtain rfl := Except.ok.inj hy'
    exact hmoved

/-- The directory `/r/d` has the same snapshot through the link `/r/l`, recorded there. -/
theorem scanWith_of_isLink_linked :
    let v := Survey.linkedInner
    let p : Path := Path.joinAll ⟨[47, 114]⟩ [[108]]
    let q : Path := ⟨[47, 114, 47, 100]⟩
    v.files.WellFormed ∧ (∀ path, (v.hasher path v.files).files = v.files) ∧ p.climbs = false
      ∧ RootLocation.absolute v.files p = .ok p ∧ v.files.isLink p = true
      ∧ v.files.canonicalize p = .ok q
      ∧ ∃ x y s t, scanWith v.options v.hash v.hasher v.files p = .ok x
        ∧ scanWith v.options v.hash v.hasher v.files q = .ok y
        ∧ x.outcome.counts = y.outcome.counts
        ∧ x.outcome.snapshot = some s ∧ y.outcome.snapshot = some t
        ∧ s.Moved (RootLocation.Told v.files ⟨q, p.plain, p.entryName, .viaSymlink⟩
            ⟨q, q, q.entryName, .direct⟩) [] t := by
  intro v p q
  have hclimbs : p.climbs = false := by cbv
  have hlink : v.files.isLink p = true := by cbv
  have hq : v.files.canonicalize p = .ok q := by cbv
  have hdriver := v.scanWith_view_of_clear Survey.resolve_linkedInner
  simp only [v, Survey.view_linkedInner] at hdriver
  obtain ⟨x, hx, houtcome⟩ := hdriver
  have hx : scanWith v.options v.hash v.hasher v.files p = .ok x := hx
  have hfiles : v.files.WellFormed := Survey.wellFormed_linkedFiles
  obtain ⟨hboth, hsame⟩ := @scanWith_of_isLink v.options v.hash v.hasher v.files hfiles v.still p p q
    hclimbs rfl hlink hq
  rw [hx] at hboth
  cases hy : scanWith v.options v.hash v.hasher v.files q with
  | error e => simp [hy, Except.isOk, Except.toBool] at hboth
  | ok y =>
      obtain ⟨hcounts, -, hmoved⟩ := hsame x y hx hy
      have hsnapshot := congrArg ScanOutcome.snapshot
        (houtcome (Survey.clear_linkedDirectory _ _ _ _))
      obtain ⟨s, hs⟩ : ∃ s, x.outcome.snapshot = some s := ⟨_, hsnapshot⟩
      rw [hs] at hmoved
      cases ht : y.outcome.snapshot with
      | none =>
          rw [ht] at hmoved
          cases hmoved
      | some t =>
          rw [ht] at hmoved
          cases hmoved with
          | some hmoved =>
              exact ⟨hfiles, v.still, hclimbs, rfl, hlink, hq, x, y, s, t, hx, rfl, hcounts, hs, ht,
                hmoved⟩

end TreeDigest
