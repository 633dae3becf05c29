import TreeDigest.Proofs.FileSystem.Growing

/-!
Making directories and writing files.

Making a directory with the missing ones above it, and writing a file, only make a file system
grow, also if they fail on the way. What was made is found under its path afterwards, and making it
again changes nothing.

* `fill` and `overwrite` are the two changes that are made: a node where a name was free, and
  another content of a file.
* `resolve_unslashed`: slashes at the end of a path make no difference for a directory.
* `createDirectory_ok`, `createDirectories_spec` and `write_ok` say what the operations do, and
  `createDirectories_of_isDirectory` that a directory is made once.
-/

namespace TreeDigest

namespace Path

/-- A path is on the way of itself, and so is what is on the way of the path before its last
name. -/
inductive OnWay : Path → Path → Prop where
  | self (p : Path) : OnWay p p
  | above {p parent a : Path} : p.parent? = some parent → OnWay parent a → OnWay p a

/-- A path without the slashes at its end. -/
def unslashed (p : Path) : Path := ⟨(p.bytes.reverse.dropWhile (· == slash)).reverse⟩

variable {p : Path}

variable (p) in
lemma exists_bytes_unslashed :
    ∃ k, p.bytes = p.unslashed.bytes ++ List.replicate k slash := by
  have hall : ∀ b ∈ p.bytes.reverse.takeWhile (· == slash), b = slash := fun b hb => by
    simpa using List.mem_takeWhile_imp hb
  refine ⟨(p.bytes.reverse.takeWhile (· == slash)).length, ?_⟩
  rw [unslashed, ← List.eq_replicate_of_mem hall, ← List.reverse_inj, List.reverse_append,
    List.reverse_reverse, List.eq_replicate_of_mem hall, List.reverse_replicate,
    ← List.eq_replicate_of_mem hall, List.takeWhile_append_dropWhile]

lemma steps_unslashed : p.unslashed.steps = p.steps := by
  obtain ⟨k, hk⟩ := p.exists_bytes_unslashed
  have hmore : ∀ k, (Text.splitOn slash (p.unslashed.bytes ++ List.replicate k slash)).filter
      (· ≠ []) = (Text.splitOn slash p.unslashed.bytes).filter (· ≠ []) := by
    intro k
    induction k with
    | zero => simp
    | succ k ih =>
        rw [List.replicate_succ', ← List.append_assoc, Text.splitOn_append_cons,
          List.filter_append, ih]
        simp [Text.splitOn]
  rw [steps, steps, segments, segments, hk]
  exact (hmore k).symm

lemma isAbsolute_unslashed (hne : p.unslashed.bytes ≠ []) :
    p.unslashed.isAbsolute = p.isAbsolute := by
  obtain ⟨k, hk⟩ := p.exists_bytes_unslashed
  rw [isAbsolute, isAbsolute, hk, List.head?_append_of_ne_nil _ hne]

end Path

namespace FileSystem

open TreeDigest.Path

variable {fs fs' : FileSystem} {p : Path} {follow : Bool} {T : Trail} {x : Bytes} {n : Node}

/-! ### The changes that are made -/

/-- Under the name that was changed in a directory, the changed file system has the new node. -/
lemma exists_grown_put (hT : T.Valid fs) (hgrows : fs.Grows (fs.changeAt T (·.put x n))) :
    ∃ T', Trail.Grown fs (fs.changeAt T (·.put x n)) T T'
      ∧ ((fs.changeAt T (·.put x n)).entriesAt T').find? x = some n := by
  obtain ⟨T', -, hgrown⟩ := trailOf?_of_grows hgrows (trailOf?_names hT)
  have hapart : ¬ T.names ++ [x] <+: T.names := fun hunder => by
    simpa using hunder.length_le
  have htouched := touched_changeAt (x := x) (n := n)
    ⟨hgrown.valid, hgrown.valid', hgrown.names, hapart⟩
  refine ⟨T', hgrown, ?_⟩
  rcases htouched with ⟨rest, hnames, hes⟩ | ⟨hnot, -⟩
  · obtain rfl : rest = [] := by simpa using hnames
    rw [hes]
    exact Entries.find?_put_self _ x n
  · exact absurd (List.prefix_refl _) hnot

/-- Another node has been put where a path leads to by then, and no directory was there before. -/
structure Puts (fs : FileSystem) (p : Path) (fs' : FileSystem) : Prop where
  grows : fs.Grows fs'
  fresh : fs.isDirectory p = false
  changed : ∃ T x n, T.Valid fs ∧ (∀ es : Entries, (fs.entriesAt T).find? x ≠ some (.directory es))
    ∧ fs' = fs.changeAt T (·.put x n) ∧ fs'.canonicalize p = .ok (pathOf (T.names ++ [x]))

/-- A file system has changed only by nodes that were put where some paths lead to. -/
inductive Written (paths : Path → Prop) (fs : FileSystem) : FileSystem → Prop where
  | nothing : Written paths fs fs
  | put {m fs' : FileSystem} {p : Path} : Written paths fs m → paths p → m.Puts p fs' →
      Written paths fs fs'

lemma Written.trans {paths : Path → Prop} {gs : FileSystem} (h : fs.Written paths fs')
    (h' : fs'.Written paths gs) : fs.Written paths gs := by
  induction h' with
  | nothing => exact h
  | put _ hp hput ih => exact ih.put hp hput

/-- All that was there before is there after some nodes were put. -/
lemma Written.grows {paths : Path → Prop} (hfs : fs.root.Distinct) (h : fs.Written paths fs') :
    fs.Grows fs' := by
  induction h with
  | nothing => exact .refl hfs
  | put _ _ hput ih => exact ih.trans hput.grows

lemma Written.mono {paths paths' : Path → Prop} (hpaths : ∀ p, paths p → paths' p)
    (h : fs.Written paths fs') : fs.Written paths' fs' := by
  induction h with
  | nothing => exact .nothing
  | put _ hp hput ih => exact ih.put (hpaths _ hp) hput

/-- **Putting a node where a name is free.** -/
lemma fill (hfs : fs.root.Distinct) (hp : fs.resolve follow p = .ok (.vacant T x))
    (hkind : n.kind ≠ .link) (hn : ∀ inner : Entries, n = .directory inner → inner.Distinct)
    (hclosed : closed p = true → n.kind = .directory) :
    fs.Grows (fs.changeAt T (·.put x n)) ∧ ∃ place : Place,
      (fs.changeAt T (·.put x n)).resolve follow p = .ok place
        ∧ place.node? (fs.changeAt T (·.put x n)) = some n ∧ place.names = T.names ++ [x] := by
  obtain ⟨hT, hfree⟩ : T.Valid fs ∧ (fs.entriesAt T).find? x = none := resolve_valid hp
  have hgrows : fs.Grows (fs.changeAt T (·.put x n)) :=
    grows_changeAt hfs hT (Entries.grows_put hkind (by simp [hfree])) ((hT.distinct hfs).put hn)
  obtain ⟨T', hgrown, hfind⟩ := exists_grown_put hT hgrows
  exact ⟨hgrows, resolve_of_filled hgrows hp hgrown hfind hkind hclosed⟩

/-- **Writing something else into a file.** -/
lemma overwrite (hfs : fs.root.Distinct) {content content' : Bytes} {modified modified' : ℤ}
    (hp : fs.resolve follow p = .ok (.other T x (.file content modified))) :
    fs.Grows (fs.changeAt T (·.put x (.file content' modified'))) ∧ ∃ T',
      (fs.changeAt T (·.put x (.file content' modified'))).resolve follow p
          = .ok (.other T' x (.file content' modified'))
        ∧ T'.names = T.names := by
  obtain ⟨hT, hfound, -⟩ : T.Valid fs ∧ _ := resolve_valid hp
  have hgrows : fs.Grows (fs.changeAt T (·.put x (.file content' modified'))) := by
    refine grows_changeAt hfs hT (Entries.grows_put nofun fun m hm => ?_)
      ((hT.distinct hfs).put nofun)
    obtain rfl := Option.some.inj (hfound.symm.trans hm)
    exact .file
  obtain ⟨T', hgrown, hfind⟩ := exists_grown_put hT hgrows
  obtain ⟨U, m, hres, hU, -⟩ := resolve_other_of_grows hgrows hp
  obtain ⟨-, hfind', -⟩ := resolve_valid hres
  obtain rfl := hU.valid'.eq_of_names hgrown.valid' (hU.names.symm.trans hgrown.names)
  obtain rfl := Option.some.inj (hfind'.symm.trans hfind)
  exact ⟨hgrows, U, hres, hU.names.symm⟩

/-- A free name is found with links followed, too. -/
lemma resolve_true_of_vacant (hp : fs.resolve false p = .ok (.vacant T x)) :
    fs.resolve true p = .ok (.vacant T x) := by
  obtain ⟨hacc, start, hstart, hlegs⟩ := resolve_ok hp
  have htrue : fs.legs (true || closed p) maxLinks start p.steps = .ok (.vacant T x) := by
    cases hclosed : closed p with
    | true => simpa [hclosed] using hlegs
    | false =>
        rw [hclosed] at hlegs
        rcases legs_true_eq_or_link fs maxLinks start p.steps with heq | ⟨t, name, target, hlink⟩
        · exact heq.trans hlegs
        · simp [hlink] at hlegs
  rw [resolve_eq true hacc, hstart, Except.bind, htrue]
  rfl

/-! ### One directory -/

/-- **Slashes at the end of a path make no difference for a directory.** -/
lemma resolve_unslashed (hne : p.unslashed.bytes ≠ []) (hshort : p.bytes.length ≤ maxPath) :
    fs.resolve true p = .ok (.directory T) ↔ fs.resolve true p.unslashed = .ok (.directory T) := by
  obtain ⟨k, hk⟩ := p.exists_bytes_unslashed
  have hslash : (0 : UInt8) ≠ slash := by decide
  have hnul : 0 ∈ p.bytes ↔ 0 ∈ p.unslashed.bytes := by simp [hk, hslash]
  have hacc : Acceptable p ↔ Acceptable p.unslashed := by
    constructor
    · rintro ⟨h, -, -⟩
      exact ⟨mt hnul.mpr h, hne, le_trans (by simp [hk]) hshort⟩
    · rintro ⟨h, -, -⟩
      exact ⟨mt hnul.mp h, by simp [hk, hne], hshort⟩
  by_cases h : Acceptable p
  · have hstart : fs.startOf p.unslashed = fs.startOf p := by
      rw [startOf, startOf, isAbsolute_unslashed hne]
    rw [resolve_eq true h, resolve_eq true (hacc.mp h), hstart, steps_unslashed, Bool.true_or,
      Bool.true_or]
    cases fs.startOf p with
    | error e => rfl
    | ok start =>
        simp only [Except.bind]
        cases fs.legs true maxLinks start p.steps with
        | error e => rfl
        | ok place =>
            cases place with
            | directory | vacant => rfl
            | other =>
                simp only [Place.asked]
                constructor <;> split <;> simp
  · obtain ⟨e, he⟩ := resolve_refused h
    obtain ⟨e', he'⟩ := resolve_refused (mt hacc.mpr h)
    simp [he, he']

/-- A path that is nothing but slashes leads to the root. -/
lemma resolve_slashes (hempty : p.unslashed.bytes = []) {place : Place}
    (hp : fs.resolve follow p = .ok place) : ∃ T, place = .directory T := by
  obtain ⟨-, start, -, hlegs⟩ := resolve_ok hp
  have hsteps : p.steps = [] := by
    rw [← steps_unslashed, steps, segments, hempty]
    rfl
  have hleg : fs.leg (follow || closed p) start [] = .ok (.arrived (.directory start)) := rfl
  rw [hsteps, legs_arrived hleg] at hlegs
  exact ⟨start, (Except.ok.inj hlegs).symm⟩

/-- What making one directory comes to. -/
lemma createDirectory_eq (fs : FileSystem) (p : Path) :
    fs.createDirectory p = (if p.unslashed.bytes = [] then fs.resolve false p
      else if maxPath < p.bytes.length then .error .nameTooLong
      else fs.resolve false p.unslashed).bind fun place =>
        match place with
        | .vacant T x => .ok (fs.changeAt T (·.put x (.directory [])))
        | _ => .error .alreadyExists := by
  have hbind : ∀ r : Except IoError Place, (r >>= fun place =>
      match place with
      | .vacant T x => (return fs.changeAt T (·.put x (.directory [])) : Except IoError FileSystem)
      | _ => throw .alreadyExists) = r.bind fun place =>
        match place with
        | .vacant T x => .ok (fs.changeAt T (·.put x (.directory [])))
        | _ => .error .alreadyExists := by
    rintro (e | _ | _ | _) <;> rfl
  rw [createDirectory]
  change (if p.unslashed.bytes = [] then _ else _) = _
  by_cases hempty : p.unslashed.bytes = []
  · rw [if_pos hempty, if_pos hempty]
    exact hbind _
  · rw [if_neg hempty, if_neg hempty]
    by_cases hlong : maxPath < p.bytes.length
    · simp only [if_pos hlong]
      rfl
    · simp only [if_neg hlong]
      exact hbind _

/-- **A directory that is there is not made again.** -/
lemma createDirectory_of_isDirectory (hp : fs.isDirectory p = true) :
    fs.createDirectory p = .error .alreadyExists := by
  obtain ⟨es, hnode⟩ := isDirectory_iff.mp hp
  obtain ⟨T, hres, -⟩ := resolve_of_node_directory hnode
  have hacc := (resolve_ok hres).1
  have hfound : ∀ q, fs.resolve true q = .ok (.directory T) →
      ∃ place, fs.resolve false q = .ok place ∧ ∀ U x, place ≠ .vacant U x := by
    intro q hq
    obtain ⟨m, hm⟩ := exists_node_false (node_of_resolve hq rfl)
    obtain ⟨place, hplace, hnode⟩ := node_ok_iff.mp hm
    refine ⟨place, hplace, ?_⟩
    rintro U x rfl
    cases hnode
  rw [createDirectory_eq]
  have hplace : ∃ place, (if p.unslashed.bytes = [] then fs.resolve false p
      else if maxPath < p.bytes.length then .error .nameTooLong
      else fs.resolve false p.unslashed) = .ok place ∧ ∀ U x, place ≠ .vacant U x := by
    by_cases hempty : p.unslashed.bytes = []
    · rw [if_pos hempty]
      exact hfound p hres
    · rw [if_neg hempty, if_neg (Nat.not_lt.mpr hacc.short)]
      exact hfound _ ((resolve_unslashed hempty hacc.short).mp hres)
  obtain ⟨place, hplace, hnot⟩ := hplace
  rw [hplace, Except.bind]
  cases place with
  | vacant U x => exact absurd rfl (hnot U x)
  | directory | other => rfl

/-- **A directory that was made is there**, and nothing else has changed. -/
theorem createDirectory_ok (hfs : fs.root.Distinct) (hmade : fs.createDirectory p = .ok fs') :
    fs.Grows fs' ∧ fs'.isDirectory p = true ∧ fs.Puts p fs' := by
  have hfresh : fs.isDirectory p = false := by
    rw [← Bool.not_eq_true]
    intro hdir
    simp [createDirectory_of_isDirectory hdir] at hmade
  rw [createDirectory_eq] at hmade
  by_cases hempty : p.unslashed.bytes = []
  · rw [if_pos hempty] at hmade
    cases hres : fs.resolve false p with
    | error e => simp [hres, Except.bind] at hmade
    | ok place =>
        obtain ⟨T, rfl⟩ := resolve_slashes hempty hres
        simp [hres, Except.bind] at hmade
  by_cases hlong : maxPath < p.bytes.length
  · simp [hempty, hlong, Except.bind] at hmade
  rw [if_neg hempty, if_neg hlong] at hmade
  cases hres : fs.resolve false p.unslashed with
  | error e => simp [hres, Except.bind] at hmade
  | ok place =>
      cases place with
      | directory | other => simp [hres, Except.bind] at hmade
      | vacant T x =>
          obtain rfl : fs.changeAt T (·.put x (.directory [])) = fs' := by
            simpa [hres, Except.bind] using hmade
          obtain ⟨hT, hfree⟩ : T.Valid fs ∧ (fs.entriesAt T).find? x = none := resolve_valid hres
          have hnew : ∀ inner : Entries, Node.directory [] = .directory inner → inner.Distinct := by
            intro inner heq
            obtain rfl : [] = inner := by simpa using heq
            exact .intro (by simp) (by simp)
          obtain ⟨hgrows, place, hplace, hnode, hnames⟩ :=
            fill hfs (resolve_true_of_vacant hres) (by simp [Node.kind]) hnew fun _ => rfl
          -- What was made is a directory, so it is also found with slashes written.
          obtain ⟨U, rfl⟩ : ∃ U, place = .directory U := by
            cases place with
            | directory U => exact ⟨U, rfl⟩
            | vacant => cases hnode
            | other U y m =>
                obtain rfl : m = .directory [] := Option.some.inj hnode
                exact absurd rfl (resolve_valid hplace).2.2
          rw [← resolve_unslashed hempty (Nat.not_lt.mp hlong)] at hplace
          have hplain := canonicalize_of_resolve hplace hnode
          exact ⟨hgrows, isDirectory_iff.mpr ⟨_, node_of_resolve hplace hnode⟩,
            hgrows, hfresh, T, x, _, hT, by simp [hfree], rfl, hnames ▸ hplain⟩

/-! ### Directories and those above them -/

/-- Making one directory, or finding it there. -/
lemma ensureDirectory_spec (hfs : fs.root.Distinct) (p : Path) :
    fs.Grows (Attempt.of fs (·.ensureDirectory p)).files
      ∧ ((Attempt.of fs (·.ensureDirectory p)).result = .ok () →
        (Attempt.of fs (·.ensureDirectory p)).files.isDirectory p = true)
      ∧ fs.Written p.OnWay (Attempt.of fs (·.ensureDirectory p)).files := by
  rw [Attempt.of, ensureDirectory]
  cases hmade : fs.createDirectory p with
  | ok fs' =>
      obtain ⟨hgrows, hdir, hputs⟩ := createDirectory_ok hfs hmade
      exact ⟨hgrows, fun _ => hdir, Written.nothing.put (.self p) hputs⟩
  | error e =>
      by_cases hdir : fs.isDirectory p = true
      · simp only [if_pos hdir]
        exact ⟨.refl hfs, fun _ => hdir, .nothing⟩
      · simp only [if_neg hdir]
        exact ⟨.refl hfs, nofun, .nothing⟩

lemma createDirectoriesUpTo_spec (room : ℕ) (hfs : fs.root.Distinct) (p : Path) :
    fs.Grows (createDirectoriesUpTo room fs p).files
      ∧ ((createDirectoriesUpTo room fs p).result = .ok () →
        p.bytes = [] ∨ (createDirectoriesUpTo room fs p).files.isDirectory p = true)
      ∧ fs.Written p.OnWay (createDirectoriesUpTo room fs p).files := by
  fun_induction createDirectoriesUpTo room fs p with
  | case1 room fs p hempty => exact ⟨.refl hfs, fun _ => .inl hempty, .nothing⟩
  | case2 fs p _ room parent hparent _ ih =>
      -- The directories above are there or were made, and what is made in them is added to that.
      obtain ⟨habove, -, hwritten⟩ := ih hfs
      have hway := hwritten.mono fun a ha => Path.OnWay.above hparent ha
      rw [Attempt.andThen]
      split
      · obtain ⟨hhere, hdir, hwritten'⟩ := ensureDirectory_spec habove.distinct p
        exact ⟨habove.trans hhere, fun hok => .inr (hdir hok), hway.trans hwritten'⟩
      · next hfailed => exact ⟨habove, fun hok => by simp [hok] at hfailed, hway⟩
  | case3 => exact ⟨.refl hfs, nofun, .nothing⟩
  | case4 room fs p =>
      obtain ⟨hgrows, hdir, hwritten⟩ := ensureDirectory_spec hfs p
      exact ⟨hgrows, fun hok => .inr (hdir hok), hwritten⟩

/-- **Directories that are asked for are there afterwards**, if no step failed; the empty path asks
for none. Whatever fails, the file system only grows, and only on the way to the directory. -/
theorem createDirectories_spec (hfs : fs.root.Distinct) (p : Path) :
    fs.Grows (fs.createDirectories p).files ∧ ((fs.createDirectories p).result = .ok () →
      p.bytes = [] ∨ (fs.createDirectories p).files.isDirectory p = true)
      ∧ fs.Written p.OnWay (fs.createDirectories p).files :=
  createDirectoriesUpTo_spec p.bytes.length hfs p

/-- **Directories that are there are not made again.** -/
theorem createDirectories_of_isDirectory (hp : p.bytes = [] ∨ fs.isDirectory p = true) :
    fs.createDirectories p = ⟨fs, .ok ()⟩ := by
  rw [createDirectories]
  generalize p.bytes.length = room
  fun_cases createDirectoriesUpTo room fs p with
  | case1 => rfl
  | case2 fs p hne room parent hparent hmissing =>
      simp [createDirectory_of_isDirectory (hp.resolve_left hne)] at hmissing
  | case3 room fs p hne hmissing =>
      simp [createDirectory_of_isDirectory (hp.resolve_left hne)] at hmissing
  | case4 room fs p hne =>
      have hdir := hp.resolve_left hne
      simp only [Attempt.of, ensureDirectory, createDirectory_of_isDirectory hdir, hdir, if_true]

/-! ### Files -/

/-- **What was written is in the file**, unless the path leads to a special node, which takes
everything and keeps nothing. -/
theorem write_ok (hfs : fs.root.Distinct) {content : Bytes} {modified : ℤ}
    (hwritten : fs.write p content modified = .ok fs') :
    fs.Grows fs' ∧ (fs'.node true p = .ok (.file content modified) ∧ fs.Puts p fs'
      ∨ fs' = fs ∧ ∃ n, fs.node true p = .ok n ∧ n.kind ≠ .file) := by
  rw [write, writeWith] at hwritten
  cases hres : fs.resolve true p with
  | error e => simp [hres, bind, Except.bind] at hwritten
  | ok place =>
      have hfresh : (∀ T, place ≠ .directory T) → fs.isDirectory p = false := by
        intro hplace
        rw [← Bool.not_eq_true, isDirectory_iff]
        rintro ⟨es, hnode⟩
        obtain ⟨T, hdir, -⟩ := resolve_of_node_directory hnode
        exact hplace T (Except.ok.inj (hres.symm.trans hdir))
      rw [hres] at hwritten
      cases place with
      | directory T => cases hwritten
      | vacant T x =>
          by_cases hclosed : p.bytes.getLast? = some slash
          · simp [hclosed, bind, Except.bind, throw, throwThe, MonadExceptOf.throw] at hwritten
          · obtain rfl : fs.changeAt T (·.put x (.file content modified)) = fs' := by
              simpa [hclosed, bind, Except.bind, pure, Except.pure] using hwritten
            obtain ⟨hT, hfree⟩ : T.Valid fs ∧ (fs.entriesAt T).find? x = none := resolve_valid hres
            obtain ⟨hgrows, place, hplace, hnode, hnames⟩ :=
              fill (n := .file content modified) hfs hres nofun nofun
                fun h => absurd (of_decide_eq_true h) hclosed
            have hplain := canonicalize_of_resolve hplace hnode
            exact ⟨hgrows, .inl ⟨node_of_resolve hplace hnode, hgrows, hfresh (by simp),
              T, x, _, hT, by simp [hfree], rfl, hnames ▸ hplain⟩⟩
      | other T x n =>
          cases n with
          | file old before =>
              obtain rfl : fs.changeAt T (·.put x (.file content modified)) = fs' := by
                simpa [bind, Except.bind, pure, Except.pure] using hwritten
              obtain ⟨hT, hfound, -⟩ : T.Valid fs ∧ _ := resolve_valid hres
              obtain ⟨hgrows, T', hplace, hnames⟩ := overwrite hfs hres
              have hplain := canonicalize_of_resolve hplace rfl
              rw [Place.names, hnames] at hplain
              exact ⟨hgrows, .inl ⟨node_of_resolve hplace rfl, hgrows, hfresh (by simp),
                T, x, _, hT, by simp [hfound], rfl, hplain⟩⟩
          | directory | link | special =>
              obtain rfl : fs = fs' := by
                simpa [bind, Except.bind, pure, Except.pure] using hwritten
              exact ⟨.refl hfs, .inr ⟨rfl, _, node_of_resolve hres rfl, by simp [Node.kind]⟩⟩

/-- What was written to a path that leads to a regular file by then is in it. -/
lemma write_ok_of_isFile (hfs : fs.root.Distinct) {content : Bytes} {modified : ℤ}
    (hwritten : fs.write p content modified = .ok fs') (hfile : fs'.isFile p = true) :
    fs'.node true p = .ok (.file content modified) ∧ fs.Puts p fs' := by
  obtain ⟨-, hput | ⟨rfl, n, hnode, hkind⟩⟩ := write_ok hfs hwritten
  · exact hput
  · obtain ⟨old, before, hnode'⟩ := isFile_iff.mp hfile
    obtain rfl := Except.ok.inj (hnode.symm.trans hnode')
    exact absurd rfl hkind

/-- A file that is there can be written to. -/
lemma exists_write_of_isFile (hp : fs.isFile p = true) (content : Bytes) (modified : ℤ) :
    ∃ fs', fs.write p content modified = .ok fs' := by
  obtain ⟨T, x, old, before, hres⟩ := resolve_of_isFile hp
  exact ⟨_, by rw [write, writeWith, hres]; rfl⟩

end FileSystem

end TreeDigest
