import TreeDigest.Proofs.Path.Segments

/-!
Where paths lead.

Looking a path up goes through its names and follows links on the way. In a well-formed
file system, in which the names of every directory are proper and distinct, what a lookup
arrives at stands where the lookup says, and so a listed entry is found again under the
path of its directory and its name.

* `Trail.Valid` and `Place.Valid`: a trail leads through directories that are there.
* `legs_ok_induction` and `legs_error_induction` are the inductions over the links that a lookup
  follows, to a place or to a failure; `legs_valid` is a first use.
* `legs_append`: looking up some more names goes on from the directory that the first ones
  lead to, and `resolve_joinAll` says so of paths.
* `node_ok_iff` and `canonicalize_eq_ok_iff` are what it means that a path names a node and that it
  has a plain form.
* `stands_join` finds a listed entry, `node_true_eq_or_link` compares the two ways to look at
  the end of a path, and `stands_canonicalize` looks at a plain path.
-/

namespace TreeDigest

/-- Names are proper and distinct, here and in all directories below. -/
inductive Entries.WellFormed : Entries → Prop where
  | intro {es : Entries} : (∀ e ∈ es, Path.IsName e.1) → (es.map (·.1)).Nodup →
      (∀ name inner, (name, Node.directory inner) ∈ es → WellFormed inner) → WellFormed es

namespace Entries

variable {es : Entries} {name : Bytes} {node : Node}

lemma mem_of_find? (hfind : es.find? name = some node) : (name, node) ∈ es := by
  simp only [find?, Option.map_eq_some_iff] at hfind
  obtain ⟨e, he, rfl⟩ := hfind
  obtain rfl : e.1 = name := by simpa using List.find?_some he
  exact List.mem_of_find?_eq_some he

/-- Where names are distinct, every entry is the one that its name finds. -/
lemma find?_eq_of_nodup (hnodup : (es.map (·.1)).Nodup) (hmem : (name, node) ∈ es) :
    es.find? name = some node := by
  induction es with
  | nil => simp at hmem
  | cons e rest ih =>
      rw [List.map_cons, List.nodup_cons] at hnodup
      rcases List.mem_cons.mp hmem with rfl | hmem
      · simp [find?]
      · have hne : e.1 ≠ name := fun heq =>
          hnodup.1 (heq ▸ List.mem_map_of_mem (f := (·.1)) hmem)
        have hrest := ih hnodup.2 hmem
        simp only [find?] at hrest ⊢
        rw [List.find?_cons_of_neg (by simpa using hne)]
        exact hrest

lemma WellFormed.nodup (hes : es.WellFormed) : (es.map (·.1)).Nodup := by
  obtain ⟨-, hnodup, -⟩ := hes
  exact hnodup

/-- In a well-formed directory every entry is the one that its name finds. -/
lemma WellFormed.find?_eq (hes : es.WellFormed) (hmem : (name, node) ∈ es) :
    es.find? name = some node := find?_eq_of_nodup hes.nodup hmem

lemma WellFormed.isName (hes : es.WellFormed) (hmem : (name, node) ∈ es) : Path.IsName name := by
  obtain ⟨hnames, -, -⟩ := hes
  exact hnames _ hmem

lemma WellFormed.inner {inner : Entries} (hes : es.WellFormed)
    (hmem : (name, Node.directory inner) ∈ es) : inner.WellFormed := by
  obtain ⟨-, -, hinner⟩ := hes
  exact hinner _ _ hmem

end Entries

namespace FileSystem

open TreeDigest.Path

/-- Every directory of a file system is well-formed. -/
def WellFormed (fs : FileSystem) : Prop := fs.root.WellFormed

variable (fs : FileSystem)

/-- A trail leads through directories that are there. -/
def Trail.Valid : Trail → Prop
  | [] => True
  | (name, es) :: rest => (fs.entriesAt rest).find? name = some (.directory es) ∧ Valid rest

/-- What stands at a place is what the place says. -/
def Place.Valid : Place → Prop
  | .directory trail => trail.Valid fs
  | .other trail name node => trail.Valid fs ∧ (fs.entriesAt trail).find? name = some node
      ∧ node.kind ≠ .directory
  | .vacant trail name => trail.Valid fs ∧ (fs.entriesAt trail).find? name = none

/-- What a lookup has reached is there. -/
def Leg.Valid : Leg → Prop
  | .arrived place => place.Valid fs
  | .link trail _ _ => trail.Valid fs

variable {fs}

namespace Trail

lemma Valid.tail {trail : Trail} (ht : trail.Valid fs) : Valid fs trail.tail := by
  cases trail with
  | nil => trivial
  | cons step rest => exact ht.2

/-- Directories on a valid trail are well-formed. -/
lemma Valid.wellFormed (hfs : fs.WellFormed) {trail : Trail} (ht : trail.Valid fs) :
    (fs.entriesAt trail).WellFormed := by
  induction trail with
  | nil => exact hfs
  | cons step rest ih => exact (ih ht.2).inner (Entries.mem_of_find? ht.1)

lemma Valid.isName (hfs : fs.WellFormed) {trail : Trail} (ht : trail.Valid fs) :
    ∀ name ∈ trail.names, Path.IsName name := by
  induction trail with
  | nil => simp [names]
  | cons step rest ih =>
      intro name hname
      simp only [names, List.map_cons, List.reverse_cons, List.mem_append,
        List.mem_singleton] at hname
      rcases hname with hname | rfl
      · exact ih ht.2 name hname
      · exact (ht.2.wellFormed hfs).isName (Entries.mem_of_find? ht.1)

end Trail

/-! ### What is reached is there -/

/-- Where the names of a link's target are looked up from. -/
def linkStart (trail : Trail) (target : Bytes) : Trail :=
  if isAbsolute ⟨target⟩ then [] else trail

/-- A lookup that arrives at once. -/
lemma legs_arrived {follow : Bool} {trail : Trail} {names : List Bytes} {place : Place}
    (hl : fs.leg follow trail names = .ok (.arrived place)) (links : Nat) :
    fs.legs follow links trail names = .ok place := by
  rw [legs, hl]
  rfl

/-- A lookup that follows a link. -/
lemma legs_link {follow : Bool} {trail t : Trail} {names rest : List Bytes} {target : Bytes}
    (hl : fs.leg follow trail names = .ok (.link t target rest)) (links : Nat) :
    fs.legs follow (links + 1) trail names
      = fs.legs follow links (linkStart t target) (segments ⟨target⟩ ++ rest) := by
  rw [legs, hl]
  rfl

/-- A lookup that would have to follow a link too many. -/
lemma legs_link_zero {follow : Bool} {trail t : Trail} {names rest : List Bytes} {target : Bytes}
    (hl : fs.leg follow trail names = .ok (.link t target rest)) :
    fs.legs follow 0 trail names = .error .tooManyLinks := by
  rw [legs, hl]
  rfl

lemma legs_error {follow : Bool} {trail : Trail} {names : List Bytes} {e : IoError}
    (hl : fs.leg follow trail names = .error e) (links : Nat) :
    fs.legs follow links trail names = .error e := by
  rw [legs, hl]
  rfl

/-- **Induction over the links that a lookup follows to a place**: it arrives at once, or goes on
behind a link with one link less. -/
@[elab_as_elim]
lemma legs_ok_induction {follow : Bool} {place : Place}
    {motive : ∀ links trail names, fs.legs follow links trail names = .ok place → Prop}
    (arrived : ∀ links trail names (hl : fs.leg follow trail names = .ok (.arrived place)),
      motive links trail names (legs_arrived hl links))
    (link : ∀ links trail names t target rest
      (hl : fs.leg follow trail names = .ok (.link t target rest))
      (hp : fs.legs follow links (linkStart t target) (segments ⟨target⟩ ++ rest) = .ok place),
      motive links _ _ hp → motive (links + 1) trail names ((legs_link hl links).trans hp))
    {links : Nat} {trail : Trail} {names : List Bytes}
    (hp : fs.legs follow links trail names = .ok place) : motive links trail names hp := by
  induction links generalizing trail names with
  | zero =>
      cases hl : fs.leg follow trail names with
      | error e => simp [legs_error hl] at hp
      | ok l => cases l with
        | arrived place' =>
            obtain rfl : place' = place := by simpa [legs_arrived hl] using hp
            exact arrived _ _ _ hl
        | link => simp [legs_link_zero hl] at hp
  | succ links ih =>
      cases hl : fs.leg follow trail names with
      | error e => simp [legs_error hl] at hp
      | ok l => cases l with
        | arrived place' =>
            obtain rfl : place' = place := by simpa [legs_arrived hl] using hp
            exact arrived _ _ _ hl
        | link t target rest =>
            have hbehind := (legs_link hl links).symm.trans hp
            exact link _ _ _ _ _ _ hl hbehind (ih hbehind)

/-- **Induction over the links that a lookup follows until it fails**: names fail before the next
link, there is no link left to follow, or it fails behind a link. -/
@[elab_as_elim]
lemma legs_error_induction {follow : Bool} {e : IoError}
    {motive : ∀ links trail names, fs.legs follow links trail names = .error e → Prop}
    (names_fail : ∀ links trail names (hl : fs.leg follow trail names = .error e),
      motive links trail names (legs_error hl links))
    (no_link_left : ∀ trail names t target rest
      (hl : fs.leg follow trail names = .ok (.link t target rest)) (he : .tooManyLinks = e),
      motive 0 trail names ((legs_link_zero hl).trans (congrArg _ he)))
    (link : ∀ links trail names t target rest
      (hl : fs.leg follow trail names = .ok (.link t target rest))
      (hp : fs.legs follow links (linkStart t target) (segments ⟨target⟩ ++ rest) = .error e),
      motive links _ _ hp → motive (links + 1) trail names ((legs_link hl links).trans hp))
    {links : Nat} {trail : Trail} {names : List Bytes}
    (hp : fs.legs follow links trail names = .error e) : motive links trail names hp := by
  induction links generalizing trail names with
  | zero =>
      cases hl : fs.leg follow trail names with
      | error e' =>
          obtain rfl : e' = e := by simpa [legs_error hl] using hp
          exact names_fail _ _ _ hl
      | ok l => cases l with
        | arrived place => simp [legs_arrived hl] at hp
        | link => exact no_link_left _ _ _ _ _ hl (by simpa [legs_link_zero hl] using hp)
  | succ links ih =>
      cases hl : fs.leg follow trail names with
      | error e' =>
          obtain rfl : e' = e := by simpa [legs_error hl] using hp
          exact names_fail _ _ _ hl
      | ok l => cases l with
        | arrived place => simp [legs_arrived hl] at hp
        | link t target rest =>
            have hbehind := (legs_link hl links).symm.trans hp
            exact link _ _ _ _ _ _ hl hbehind (ih hbehind)

lemma leg_valid {follow : Bool} {trail : Trail} {names : List Bytes} {l : Leg}
    (ht : trail.Valid fs) (hl : fs.leg follow trail names = .ok l) : l.Valid fs := by
  fun_induction leg fs follow trail names with
  | case1 trail =>
      obtain rfl := Except.ok.inj hl
      exact ht
  | case2 trail name rest hskip ih => exact ih ht hl
  | case3 trail rest hskip ih => exact ih ht.tail hl
  | case4 => simp at hl
  | case5 trail name rest hskip hdots hlong es hfind ih => exact ih ⟨hfind, ht⟩ hl
  | case6 trail name rest hskip hdots hlong target hfind hstop =>
      obtain rfl := Except.ok.inj hl
      exact ⟨ht, hfind, by simp [Node.kind]⟩
  | case7 =>
      obtain rfl := Except.ok.inj hl
      exact ht
  | case8 trail name hskip hdots hlong node hdir hlink hfind =>
      obtain rfl := Except.ok.inj hl
      refine ⟨ht, hfind, ?_⟩
      cases node with
      | directory es => exact absurd rfl (hdir es)
      | _ => simp [Node.kind]
  | case9 => simp at hl
  | case10 trail name hskip hdots hlong hfind =>
      obtain rfl := Except.ok.inj hl
      exact ⟨ht, hfind⟩
  | case11 => simp at hl

lemma linkStart_valid {trail : Trail} (ht : trail.Valid fs) (target : Bytes) :
    (linkStart trail target).Valid fs := by
  rw [linkStart]
  split
  · trivial
  · exact ht

/-- **A lookup keeps to what is there**, however many links it follows. -/
lemma legs_valid {follow : Bool} {links : Nat} {trail : Trail} {names : List Bytes} {place : Place}
    (ht : trail.Valid fs) (hp : fs.legs follow links trail names = .ok place) :
    place.Valid fs := by
  induction hp using legs_ok_induction with
  | arrived links trail names hl => exact leg_valid ht hl
  | link links trail names t target rest hl _ ih => exact ih (linkStart_valid (leg_valid ht hl) _)

/-- The trail of the current directory leads through directories that are there. -/
lemma trailOf?_valid {names : List Bytes} {trail : Trail}
    (ht : fs.trailOf? names = some trail) : trail.Valid fs := by
  refine List.foldlRecOn (motive := fun start => ∀ t, start = some t → t.Valid fs) names _
    (fun t ht => ?_) (fun start hstart name _ t ht => ?_) trail ht
  · obtain rfl := Option.some.inj ht
    trivial
  · cases start with
    | none => simp at ht
    | some t' =>
        simp only [Option.bind_eq_bind, Option.bind_some] at ht
        split at ht
        · next es hfind =>
            obtain rfl := Option.some.inj ht
            exact ⟨hfind, hstart t' rfl⟩
        · simp at ht

/-! ### More names -/

/-- How a lookup goes on with more names after those that led so far. -/
def Leg.goOn (fs : FileSystem) (follow : Bool) (more : List Bytes) : Leg → Except IoError Leg
  | .arrived (.directory t) => fs.leg follow t more
  | .arrived (.other _ _ _) => .error .notADirectory
  | .arrived (.vacant _ _) => .error .noEntry
  | .link t target rest => .ok (.link t target (rest ++ more))

lemma leg_append (follow : Bool) (trail : Trail) (names : List Bytes) {more : List Bytes}
    (hmore : more ≠ []) :
    fs.leg follow trail (names ++ more)
      = (fs.leg true trail names).bind (Leg.goOn fs follow more) := by
  fun_induction leg fs true trail names with
  | case1 trail => rfl
  | case2 trail name rest hskip ih => rw [List.cons_append, leg, if_pos hskip, ih]
  | case3 trail rest hskip ih => rw [List.cons_append, leg, if_neg hskip, if_pos rfl, ih]
  | case4 trail name rest hskip hdots hlong =>
      rw [List.cons_append, leg, if_neg hskip, if_neg hdots, if_pos hlong]
      rfl
  | case5 trail name rest hskip hdots hlong es hfind ih =>
      rw [List.cons_append, leg, if_neg hskip, if_neg hdots, if_neg hlong, hfind]
      exact ih
  | case6 trail name rest hskip hdots hlong target hfind hstop => simp at hstop
  | case7 trail name rest hskip hdots hlong target hfind hgo =>
      simp [leg, hskip, hdots, hlong, hfind, hmore, Except.bind, Leg.goOn]
  | case8 trail name hskip hdots hlong node hdir hlink hfind =>
      cases node with
      | directory es => exact absurd rfl (hdir es)
      | link target => exact absurd rfl (hlink target)
      | _ => simp [leg, hskip, hdots, hlong, hfind, hmore, Except.bind, Leg.goOn]
  | case9 trail name rest hskip hdots hlong node hdir hlink hfind hrest =>
      cases node with
      | directory es => exact absurd rfl (hdir es)
      | link target => exact absurd rfl (hlink target)
      | _ => simp [leg, hskip, hdots, hlong, hfind, hmore, Except.bind]
  | case10 trail name hskip hdots hlong hfind =>
      simp [leg, hskip, hdots, hlong, hfind, hmore, Except.bind, Leg.goOn]
  | case11 trail name rest hskip hdots hlong hfind hrest =>
      simp [leg, hskip, hdots, hlong, hfind, hmore, Except.bind]

/-- Where the first of two rows of names comes to, if both together come to something. -/
lemma leg_append_ok {follow : Bool} {trail : Trail} {names more : List Bytes} {l : Leg}
    (hmore : more ≠ []) (hl : fs.leg follow trail (names ++ more) = .ok l) :
    (∃ t, fs.leg true trail names = .ok (.arrived (.directory t)) ∧ fs.leg follow t more = .ok l)
      ∨ ∃ t target rest, fs.leg true trail names = .ok (.link t target rest)
        ∧ l = .link t target (rest ++ more) := by
  rw [leg_append follow trail names hmore] at hl
  match hfirst : fs.leg true trail names with
  | .error _ | .ok (.arrived (.other _ _ _)) | .ok (.arrived (.vacant _ _)) =>
      simp [hfirst, Except.bind, Leg.goOn] at hl
  | .ok (.arrived (.directory t)) =>
      rw [hfirst] at hl
      exact .inl ⟨t, rfl, hl⟩
  | .ok (.link t target rest) =>
      rw [hfirst] at hl
      exact .inr ⟨t, target, rest, rfl, (Except.ok.inj hl).symm⟩

lemma legs_congr {follow : Bool} {t t' : Trail} {names names' : List Bytes}
    (hl : fs.leg follow t names = fs.leg follow t' names') (links : Nat) :
    fs.legs follow links t names = fs.legs follow links t' names' := by
  rw [legs, legs, hl]

/-- **Looking up more names goes on from the directory that the first ones lead to**, with
the links that are left. -/
lemma legs_append {links : Nat} {trail t : Trail} {names : List Bytes}
    (hp : fs.legs true links trail names = .ok (.directory t)) :
    ∃ left ≤ links, ∀ follow more, more ≠ [] →
      fs.legs follow links trail (names ++ more) = fs.legs follow left t more := by
  induction hp using legs_ok_induction with
  | arrived links trail names hl =>
      refine ⟨links, le_rfl, fun follow more hmore => legs_congr ?_ links⟩
      rw [leg_append follow trail names hmore, hl]
      rfl
  | link links trail names t' target rest hl _ ih =>
      obtain ⟨left, hle, hleft⟩ := ih
      refine ⟨left, Nat.le_succ_of_le hle, fun follow more hmore => ?_⟩
      have hlink : fs.leg follow trail (names ++ more) = .ok (.link t' target (rest ++ more)) := by
        rw [leg_append follow trail names hmore, hl]
        rfl
      rw [legs_link hlink, ← List.append_assoc]
      exact hleft follow more hmore

/-! ### The end of a path -/

/-- Whether a link at the end is followed makes no difference for anything else. -/
lemma leg_true_eq_or_link (trail : Trail) (names : List Bytes) :
    fs.leg true trail names = fs.leg false trail names
      ∨ ∃ t name target,
        fs.leg false trail names = .ok (.arrived (.other t name (.link target))) := by
  fun_induction leg fs true trail names with
  | case1 trail => exact .inl rfl
  | case2 trail name rest hskip ih => simpa [leg, hskip] using ih
  | case3 trail rest hskip ih => simpa [leg] using ih
  | case4 trail name rest hskip hdots hlong => simp [leg, hskip, hdots, hlong]
  | case5 trail name rest hskip hdots hlong es hfind ih =>
      simpa [leg, hskip, hdots, hlong, hfind] using ih
  | case6 trail name rest hskip hdots hlong target hfind hstop => simp at hstop
  | case7 trail name rest hskip hdots hlong target hfind hgo =>
      by_cases hrest : rest = [] <;> simp [leg, hskip, hdots, hlong, hfind, hrest]
  | case8 trail name hskip hdots hlong node hdir hlink hfind =>
      cases node with
      | directory es => exact absurd rfl (hdir es)
      | link target => exact absurd rfl (hlink target)
      | _ => simp [leg, hskip, hdots, hlong, hfind]
  | case9 trail name rest hskip hdots hlong node hdir hlink hfind hrest =>
      cases node with
      | directory es => exact absurd rfl (hdir es)
      | link target => exact absurd rfl (hlink target)
      | _ => simp [leg, hskip, hdots, hlong, hfind, hrest]
  | case10 trail name hskip hdots hlong hfind => simp [leg, hskip, hdots, hlong, hfind]
  | case11 trail name rest hskip hdots hlong hfind hrest =>
      simp [leg, hskip, hdots, hlong, hfind, hrest]

variable (fs) in
lemma legs_true_eq_or_link (links : Nat) (trail : Trail) (names : List Bytes) :
    fs.legs true links trail names = fs.legs false links trail names
      ∨ ∃ t name target, fs.legs false links trail names = .ok (.other t name (.link target)) := by
  induction links generalizing trail names with
  | zero =>
      rcases leg_true_eq_or_link trail names with heq | ⟨t, name, target, hl⟩
      · exact .inl (by rw [legs, legs, heq])
      · exact .inr ⟨t, name, target, legs_arrived hl 0⟩
  | succ links ih =>
      rcases leg_true_eq_or_link trail names with heq | ⟨t, name, target, hl⟩
      · cases hl : fs.leg false trail names with
        | error e => exact .inl (by rw [legs_error hl, legs_error (heq.trans hl)])
        | ok l => cases l with
          | arrived place => exact .inl (by rw [legs_arrived hl, legs_arrived (heq.trans hl)])
          | link t target rest =>
              rw [legs_link hl, legs_link (heq.trans hl)]
              exact ih _ _
      · exact .inr ⟨t, name, target, legs_arrived hl _⟩

/-! ### Whole paths -/

/-- A path that can be looked up at all. -/
structure Acceptable (p : Path) : Prop where
  noNul : 0 ∉ p.bytes
  nonempty : p.bytes ≠ []
  short : p.bytes.length ≤ maxPath

variable (fs) in
/-- Where the names of a path are looked up from. -/
def startOf (p : Path) : Except IoError Trail :=
  if p.isAbsolute then .ok [] else fs.currentTrail

/-- The path asks for a directory. -/
def closed (p : Path) : Bool := decide (p.bytes.getLast? = some slash)

/-- A path that asks for a directory is refused where it leads to something else. -/
def Place.asked (closed : Bool) : Place → Except IoError Place
  | .other trail name node => if closed then .error .notADirectory else .ok (.other trail name node)
  | place => .ok place

lemma resolve_eq (follow : Bool) {p : Path} (hp : Acceptable p) :
    fs.resolve follow p = (fs.startOf p).bind fun start =>
      (fs.legs (follow || closed p) maxLinks start p.steps).bind (Place.asked (closed p)) := by
  obtain ⟨hnul, hne, hshort⟩ := hp
  have hsteps : p.segments.filter (fun x => decide (x ≠ [])) = p.steps := rfl
  have hlast : (p.bytes.getLast? = some slash) = (closed p = true) := by simp [closed]
  simp only [resolve, List.contains_eq_mem, decide_eq_true_eq, hnul, hne, Nat.not_lt.mpr hshort,
    if_false, bind, Except.bind, pure, Except.pure, startOf, hsteps, hlast,
    Bool.decide_eq_true]
  by_cases habs : p.isAbsolute = true
  · simp only [habs, if_true]
    rcases fs.legs (follow || closed p) maxLinks [] p.steps with e | place
    · rfl
    · cases place <;> rfl
  · simp only [habs, Bool.false_eq_true, if_false]
    rcases fs.currentTrail with e | start
    · rfl
    · rcases fs.legs (follow || closed p) maxLinks start p.steps with e | place
      · rfl
      · cases place <;> rfl

lemma resolve_tooLong {p : Path} (hnul : 0 ∉ p.bytes) (hne : p.bytes ≠ [])
    (hlong : maxPath < p.bytes.length) (follow : Bool) :
    fs.resolve follow p = .error .nameTooLong := by
  simp [resolve, hnul, hne, hlong, bind, Except.bind, throw, throwThe, MonadExceptOf.throw]

/-- A path that cannot be looked up is refused for one reason, whatever is there. -/
lemma resolve_refused {p : Path} (hp : ¬ Acceptable p) :
    ∃ e, ∀ (fs : FileSystem) follow, fs.resolve follow p = .error e := by
  by_cases hnul : 0 ∈ p.bytes
  · exact ⟨.nulByte, fun fs follow => by
      simp [resolve, hnul, bind, Except.bind, throw, throwThe, MonadExceptOf.throw]⟩
  · by_cases hempty : p.bytes = []
    · exact ⟨.noEntry, fun fs follow => by
        simp [resolve, hempty, bind, Except.bind, throw, throwThe, MonadExceptOf.throw]⟩
    · refine ⟨.nameTooLong, fun fs => resolve_tooLong hnul hempty ?_⟩
      by_contra hshort
      exact hp ⟨hnul, hempty, Nat.not_lt.mp hshort⟩

/-- What a lookup that arrives has gone through. -/
lemma resolve_ok {follow : Bool} {p : Path} {place : Place}
    (hp : fs.resolve follow p = .ok place) :
    Acceptable p ∧ ∃ start, fs.startOf p = .ok start
      ∧ fs.legs (follow || closed p) maxLinks start p.steps = .ok place := by
  have hacc : Acceptable p := by
    by_contra hrefused
    obtain ⟨e, he⟩ := resolve_refused hrefused
    simp [he] at hp
  refine ⟨hacc, ?_⟩
  rw [resolve_eq follow hacc] at hp
  cases hstart : fs.startOf p with
  | error e => simp [hstart, Except.bind] at hp
  | ok start =>
      refine ⟨start, rfl, ?_⟩
      rw [hstart] at hp
      cases hlegs : fs.legs (follow || closed p) maxLinks start p.steps with
      | error e => simp [hlegs, Except.bind] at hp
      | ok place' =>
          have hasked : Place.asked (closed p) place' = .ok place := by
            simpa [hlegs, Except.bind] using hp
          cases place' with
          | directory trail => exact hasked
          | vacant trail name => exact hasked
          | other trail name node =>
              by_cases hclosed : closed p = true
              · simp [Place.asked, hclosed] at hasked
              · simpa [Place.asked, hclosed] using hasked

lemma startOf_valid {p : Path} {start : Trail} (hstart : fs.startOf p = .ok start) :
    start.Valid fs := by
  rw [startOf] at hstart
  split at hstart
  · obtain rfl := Except.ok.inj hstart
    trivial
  · rw [currentTrail] at hstart
    split at hstart
    · next trail htrail =>
        obtain rfl := Except.ok.inj hstart
        exact trailOf?_valid htrail
    · simp at hstart

lemma resolve_valid {follow : Bool} {p : Path} {place : Place}
    (hp : fs.resolve follow p = .ok place) : place.Valid fs := by
  obtain ⟨-, start, hstart, hlegs⟩ := resolve_ok hp
  exact legs_valid (startOf_valid hstart) hlegs

/-- The node that a lookup has arrived at. -/
lemma node_eq (follow : Bool) (p : Path) :
    fs.node follow p = (fs.resolve follow p).bind fun place =>
      match place.node? fs with
      | some node => .ok node
      | none => .error .noEntry := by
  rw [node]
  cases fs.resolve follow p with
  | error e => rfl
  | ok place =>
      simp only [bind, Except.bind, pure, Except.pure]
      cases place.node? fs <;> rfl

/-- **A path names the node at the place that it is looked up to.** -/
lemma node_ok_iff {follow : Bool} {p : Path} {n : Node} : fs.node follow p = .ok n ↔
    ∃ place, fs.resolve follow p = .ok place ∧ place.node? fs = some n := by
  rw [node_eq]
  cases fs.resolve follow p with
  | error e => simp [Except.bind]
  | ok place => cases hnode : place.node? fs <;> simp [Except.bind, hnode]

lemma node_of_resolve {follow : Bool} {p : Path} {place : Place} {n : Node}
    (hp : fs.resolve follow p = .ok place) (hnode : place.node? fs = some n) :
    fs.node follow p = .ok n := node_ok_iff.mpr ⟨place, hp, hnode⟩

/-- A path that names a directory is looked up to a trail that ends in it. -/
lemma resolve_of_node_directory {follow : Bool} {p : Path} {es : Entries}
    (hdir : fs.node follow p = .ok (.directory es)) :
    ∃ trail, fs.resolve follow p = .ok (.directory trail) ∧ fs.entriesAt trail = es := by
  obtain ⟨place, hp, hnode⟩ := node_ok_iff.mp hdir
  cases place with
  | directory trail =>
      obtain rfl : fs.entriesAt trail = es := by simpa [Place.node?] using hnode
      exact ⟨trail, hp, rfl⟩
  | other trail name node =>
      obtain rfl := Option.some.inj hnode
      exact absurd rfl (resolve_valid hp).2.2
  | vacant trail name => cases hnode

/-! ### Listed entries -/

/-- Every directory of a well-formed file system is well-formed. -/
lemma wellFormed_of_node (hfs : fs.WellFormed) {follow : Bool} {p : Path} {es : Entries}
    (hdir : fs.node follow p = .ok (.directory es)) : es.WellFormed := by
  obtain ⟨trail, hres, rfl⟩ := resolve_of_node_directory hdir
  exact (resolve_valid hres : Trail.Valid fs trail).wellFormed hfs

variable (fs) in
/-- A node stands under a path, though the path may be too long to look it up. -/
def Stands (p : Path) (node : Node) : Prop :=
  (∀ follow, fs.node follow p = .error .nameTooLong)
    ∨ fs.node false p = .ok node ∧ (node.kind ≠ .link → fs.node true p = .ok node)

/-- A name that is too long is not looked up. -/
lemma legs_long {name : Bytes} (hname : IsName name) (hlong : maxName < name.length)
    (follow : Bool) (links : Nat) (trail : Trail) (rest : List Bytes) :
    fs.legs follow links trail (name :: rest) = .error .nameTooLong := by
  have hskip : ¬ (name = [] ∨ name = [dot]) := by simp [hname.nonempty, hname.notDot]
  have hl : fs.leg follow trail (name :: rest) = .error .nameTooLong := by
    rw [leg, if_neg hskip, if_neg hname.notDots, if_pos hlong]
  exact legs_error hl links

/-- The last name of a path leads to the entry of that name. -/
lemma legs_name {trail : Trail} {name : Bytes} {node : Node} (hname : IsName name)
    (hshort : ¬ maxName < name.length) (hfind : (fs.entriesAt trail).find? name = some node)
    (links : Nat) {follow : Bool} (hfollow : follow = true → node.kind ≠ .link) :
    ∃ place, fs.legs follow links trail [name] = .ok place ∧ place.node? fs = some node := by
  have hskip : ¬ (name = [] ∨ name = [dot]) := by simp [hname.nonempty, hname.notDot]
  cases node with
  | directory es =>
      have hl : fs.leg follow trail [name] = .ok (.arrived (.directory ((name, es) :: trail))) := by
        simp only [leg, if_neg hskip, if_neg hname.notDots, if_neg hshort, hfind]
      exact ⟨_, legs_arrived hl links, rfl⟩
  | link target =>
      have hstop : follow = false := by
        cases follow with
        | false => rfl
        | true => exact absurd rfl (hfollow rfl)
      have hl : fs.leg follow trail [name] = .ok (.arrived (.other trail name (.link target))) := by
        simp [leg, hskip, hname.notDots, hshort, hfind, hstop]
      exact ⟨_, legs_arrived hl links, rfl⟩
  | file content modified =>
      have hl : fs.leg follow trail [name]
          = .ok (.arrived (.other trail name (.file content modified))) := by
        simp [leg, hskip, hname.notDots, hshort, hfind]
      exact ⟨_, legs_arrived hl links, rfl⟩
  | special =>
      have hl : fs.leg follow trail [name] = .ok (.arrived (.other trail name .special)) := by
        simp [leg, hskip, hname.notDots, hshort, hfind]
      exact ⟨_, legs_arrived hl links, rfl⟩

/-- An entry stands under a path that is looked up by its name in its directory. -/
lemma stands_of_resolve {p : Path} {trail : Trail} {name : Bytes} {node : Node} {links : Nat}
    (hname : IsName name) (hfind : (fs.entriesAt trail).find? name = some node)
    (hlook : ∀ follow, fs.resolve follow p
      = (fs.legs follow links trail [name]).bind (Place.asked false)) : fs.Stands p node := by
  by_cases hshort : maxName < name.length
  · refine .inl fun follow => ?_
    rw [node_eq, hlook, legs_long hname hshort]
    rfl
  · have hnode : ∀ follow, (follow = true → node.kind ≠ .link) → fs.node follow p = .ok node := by
      intro follow hfollow
      obtain ⟨place, hplace, hnode⟩ := legs_name hname hshort hfind links hfollow
      have hasked : Place.asked false place = .ok place := by cases place <;> rfl
      rw [node_eq, hlook, hplace, Except.bind, hasked, Except.bind]
      simp only [hnode]
    exact .inr ⟨hnode false (by simp), fun hkind => hnode true fun _ => hkind⟩

/-- **A path below a directory is looked up from there**, with the links that are left, unless
it is too long. -/
theorem resolve_joinAll {p : Path} {trail : Trail}
    (hp : fs.resolve true p = .ok (.directory trail)) :
    ∃ left ≤ maxLinks, ∀ more, more ≠ [] → (∀ name ∈ more, IsName name) →
      (∀ follow, fs.resolve follow (p.joinAll more) = .error .nameTooLong)
        ∨ ∀ follow, fs.resolve follow (p.joinAll more)
            = (fs.legs follow left trail more).bind (Place.asked false) := by
  obtain ⟨hacc, start, hstart, hlegs⟩ := resolve_ok hp
  obtain ⟨left, hle, hleft⟩ := legs_append hlegs
  refine ⟨left, hle, fun more hmore hnames => ?_⟩
  have hnul := nul_notMem_joinAll hacc.nonempty hnames hacc.noNul
  have hne := joinAll_ne_nil hacc.nonempty hnames
  by_cases hlong : maxPath < (p.joinAll more).bytes.length
  · exact .inl (resolve_tooLong hnul hne hlong)
  · have hstart' : fs.startOf (p.joinAll more) = .ok start := by
      rw [startOf, isAbsolute_joinAll p hnames]
      exact hstart
    have hclosed : closed (p.joinAll more) = false := by
      obtain ⟨init, last, rfl⟩ := List.eq_nil_or_concat' more |>.resolve_left hmore
      have hinit : ∀ name ∈ init, IsName name := fun n hn => hnames n (by simp [hn])
      simpa [closed, joinAll_concat] using
        getLast?_join (joinAll_ne_nil hacc.nonempty hinit) (hnames last (by simp))
    refine .inr fun follow => ?_
    rw [resolve_eq follow ⟨hnul, hne, Nat.not_lt.mp hlong⟩, hstart', hclosed, Bool.or_false,
      steps_joinAll hacc.nonempty hnames, Except.bind, hleft follow more hmore]

/-- An entry of a directory stands under the path of the directory and its name. -/
lemma stands_entry {es : Entries} (hes : es.WellFormed) {p : Path}
    (hdir : fs.node true p = .ok (.directory es)) {name : Bytes} {node : Node}
    (hmem : (name, node) ∈ es) : fs.Stands (p.join ⟨name⟩) node := by
  obtain ⟨trail, hres, rfl⟩ := resolve_of_node_directory hdir
  have hname := hes.isName hmem
  obtain ⟨left, -, hlook⟩ := resolve_joinAll hres
  rcases hlook [name] (by simp) (by simpa using hname) with hlong | hlook
  · exact .inl fun follow => by rw [node_eq, show p.join ⟨name⟩ = p.joinAll [name] from rfl, hlong,
      Except.bind]
  · exact stands_of_resolve hname (hes.find?_eq hmem) hlook

/-- **A listed entry stands under the path of its directory and its name.** -/
theorem stands_join (hfs : fs.WellFormed) {p : Path} {es : Entries}
    (hdir : fs.node true p = .ok (.directory es)) {name : Bytes} {node : Node}
    (hmem : (name, node) ∈ es) : fs.Stands (p.join ⟨name⟩) node := by
  exact stands_entry (wellFormed_of_node hfs hdir) hdir hmem

/-! ### Links at the end, and plain paths -/

/-- **Following a link at the end of a path makes no difference for anything else.** -/
theorem node_true_eq_or_link (p : Path) :
    fs.node true p = fs.node false p ∨ ∃ target, fs.node false p = .ok (.link target) := by
  by_cases hacc : Acceptable p
  · rw [node_eq true, node_eq false, resolve_eq true hacc, resolve_eq false hacc]
    cases hclosed : closed p with
    | true => exact .inl (by simp only [Bool.or_true])
    | false =>
        simp only [Bool.or_false]
        cases fs.startOf p with
        | error e => exact .inl (by simp only [Except.bind])
        | ok start =>
            rcases legs_true_eq_or_link fs maxLinks start p.steps with
              heq | ⟨t, name, target, hl⟩
            · exact .inl (by simp only [Except.bind, heq])
            · exact .inr ⟨target, by simp only [Except.bind, hl, Place.asked, Place.node?,
                Bool.false_eq_true, if_false]⟩
  · obtain ⟨e, he⟩ := resolve_refused hacc
    exact .inl (by rw [node_eq true, node_eq false, he, he])

/-- What leads somewhere is there. -/
lemma exists_node_false {p : Path} {n : Node} (hnode : fs.node true p = .ok n) :
    ∃ m, fs.node false p = .ok m := by
  rcases @node_true_eq_or_link fs p with hsame | ⟨target, hlink⟩
  · exact ⟨n, hsame ▸ hnode⟩
  · exact ⟨_, hlink⟩

/-- What is found under a path stands there. -/
lemma stands_of_node {p : Path} {n : Node} (hnode : fs.node false p = .ok n) : fs.Stands p n := by
  refine .inr ⟨hnode, fun hkind => ?_⟩
  rcases @node_true_eq_or_link fs p with hsame | ⟨target, hlink⟩
  · exact hsame.trans hnode
  · obtain rfl := Except.ok.inj (hnode.symm.trans hlink)
    exact absurd rfl hkind

lemma leg_true_kind {trail t : Trail} {names : List Bytes} {name : Bytes} {node : Node}
    (hl : fs.leg true trail names = .ok (.arrived (.other t name node))) : node.kind ≠ .link := by
  fun_induction leg fs true trail names with
  | case1 | case4 | case7 | case9 | case10 | case11 => simp at hl
  | case2 trail name rest hskip ih => exact ih hl
  | case3 trail rest hskip ih => exact ih hl
  | case5 trail name rest hskip hdots hlong es hfind ih => exact ih hl
  | case6 trail name rest hskip hdots hlong target hfind hstop => simp at hstop
  | case8 trail name' hskip hdots hlong node' hdir hlink hfind =>
      obtain ⟨-, -, rfl⟩ : trail = t ∧ name' = name ∧ node' = node := by simpa using hl
      cases node' with
      | link target => exact absurd rfl (hlink target)
      | _ => simp [Node.kind]

lemma legs_true_kind {links : Nat} {trail t : Trail} {names : List Bytes} {name : Bytes}
    {node : Node} (hp : fs.legs true links trail names = .ok (.other t name node)) :
    node.kind ≠ .link := by
  induction hp using legs_ok_induction with
  | arrived links trail names hl => exact leg_true_kind hl
  | link _ _ _ _ _ _ _ _ ih => exact ih

/-- The names of a valid trail lead along it from the root, unless one is too long. -/
lemma leg_names (hfs : fs.WellFormed) {trail : Trail} (ht : trail.Valid fs) :
    (∀ follow rest, fs.leg follow [] (trail.names ++ rest) = fs.leg follow trail rest)
      ∨ ∀ follow rest, fs.leg follow [] (trail.names ++ rest) = .error .nameTooLong := by
  induction trail with
  | nil => exact .inl fun follow rest => rfl
  | cons step trail ih =>
      obtain ⟨name, es⟩ := step
      obtain ⟨hfind, ht⟩ := ht
      have hname := (ht.wellFormed hfs).isName (Entries.mem_of_find? hfind)
      have hskip : ¬ (name = [] ∨ name = [dot]) := by simp [hname.nonempty, hname.notDot]
      have hnames : ∀ rest, Trail.names ((name, es) :: trail) ++ rest
          = Trail.names trail ++ name :: rest := by
        simp [Trail.names]
      simp only [hnames]
      rcases ih ht with ih | ih
      · simp only [ih, leg, if_neg hskip, if_neg hname.notDots, hfind]
        by_cases hlong : maxName < name.length <;> simp [hlong]
      · exact .inr fun follow rest => ih follow _

/-- The outcome of making a path plain. -/
lemma canonicalize_eq (p : Path) :
    fs.canonicalize p = (fs.resolve true p).bind fun place =>
      match place with
      | .vacant _ _ => .error .noEntry
      | place => .ok (pathOf place.names) := by
  rw [canonicalize]
  rcases fs.resolve true p with e | place
  · rfl
  · cases place <;> rfl

/-- **The plain form of a path is the path of the names** that lead to the node there. -/
lemma canonicalize_eq_ok_iff {p q : Path} : fs.canonicalize p = .ok q ↔
    ∃ place n, fs.resolve true p = .ok place ∧ place.node? fs = some n
      ∧ q = pathOf place.names := by
  rw [canonicalize_eq]
  cases fs.resolve true p with
  | error e => simp [Except.bind]
  | ok place => cases place <;> simp [Except.bind, Place.node?, eq_comm]

lemma canonicalize_of_resolve {p : Path} {place : Place} {n : Node}
    (hp : fs.resolve true p = .ok place) (hnode : place.node? fs = some n) :
    fs.canonicalize p = .ok (pathOf place.names) :=
  canonicalize_eq_ok_iff.mpr ⟨place, n, hp, hnode, rfl⟩

/-- A path has a plain form if it leads to something. -/
lemma canonicalize_ok_iff {p : Path} :
    (∃ q, fs.canonicalize p = .ok q) ↔ ∃ n, fs.node true p = .ok n := by
  simp only [canonicalize_eq_ok_iff, node_ok_iff]
  constructor
  · rintro ⟨q, place, n, hp, hnode, -⟩
    exact ⟨n, place, hp, hnode⟩
  · rintro ⟨n, place, hp, hnode⟩
    exact ⟨_, place, n, hp, hnode, rfl⟩

lemma node_of_canonicalize_error {p : Path} {e : IoError} (hp : fs.canonicalize p = .error e) :
    fs.node true p = .error e := by
  rw [canonicalize_eq] at hp
  rw [node_eq]
  cases hres : fs.resolve true p with
  | error e' => simpa [hres, Except.bind] using hp
  | ok place =>
      cases place with
      | vacant trail name => simpa [hres, Except.bind, Place.node?] using hp
      | directory trail => simp [hres, Except.bind] at hp
      | other trail name node => simp [hres, Except.bind] at hp

/-- The plain path of a valid trail and some more names is looked up from the end of the
trail, unless it is too long. -/
lemma resolve_pathOf (hfs : fs.WellFormed) {trail : Trail} (ht : trail.Valid fs)
    (more : List Bytes) (hmore : ∀ name ∈ more, IsName name) :
    (∀ follow, fs.resolve follow (pathOf (trail.names ++ more)) = .error .nameTooLong)
      ∨ ∀ follow, fs.resolve follow (pathOf (trail.names ++ more))
          = (fs.legs (follow || closed (pathOf (trail.names ++ more))) maxLinks trail more).bind
              (Place.asked (closed (pathOf (trail.names ++ more)))) := by
  have hnames : ∀ name ∈ trail.names ++ more, IsName name := by
    intro name hname
    rcases List.mem_append.mp hname with hname | hname
    · exact ht.isName hfs name hname
    · exact hmore name hname
  have hnul := nul_notMem_pathOf hnames
  have hne : (pathOf (trail.names ++ more)).bytes ≠ [] := by simp [pathOf]
  by_cases hlong : maxPath < (pathOf (trail.names ++ more)).bytes.length
  · exact .inl (resolve_tooLong hnul hne hlong)
  · have hstart : fs.startOf (pathOf (trail.names ++ more)) = .ok [] := rfl
    have hlook : ∀ follow, fs.resolve follow (pathOf (trail.names ++ more)) = _ :=
      fun follow => resolve_eq follow ⟨hnul, hne, Nat.not_lt.mp hlong⟩
    simp only [hstart, steps_pathOf hnames, Except.bind] at hlook
    rcases leg_names hfs ht with hleg | hleg
    · refine .inr fun follow => ?_
      rw [hlook, legs_congr (hleg _ more)]
      rfl
    · refine .inl fun follow => ?_
      rw [hlook, legs_error (hleg _ more)]

/-- A directory stands under the names of its trail. -/
lemma stands_pathOf_directory (hfs : fs.WellFormed) {trail : Trail} (ht : trail.Valid fs) :
    fs.Stands (pathOf trail.names) (.directory (fs.entriesAt trail)) := by
  have hlook := resolve_pathOf hfs ht [] (by simp)
  rw [List.append_nil] at hlook
  rcases hlook with hlong | hlook
  · exact .inl fun follow => by rw [node_eq, hlong, Except.bind]
  · have hnode : ∀ follow, fs.node follow (pathOf trail.names)
        = .ok (.directory (fs.entriesAt trail)) := by
      intro follow
      have harrived : fs.leg (follow || closed (pathOf trail.names)) trail []
        = .ok (.arrived (.directory trail)) := rfl
      rw [node_eq, hlook, legs_arrived harrived]
      rfl
    exact .inr ⟨hnode false, fun _ => hnode true⟩

/-- An entry stands under the names of the trail to its directory and its own. -/
lemma stands_pathOf_entry (hfs : fs.WellFormed) {trail : Trail} (ht : trail.Valid fs)
    {name : Bytes} {node : Node} (hfind : (fs.entriesAt trail).find? name = some node) :
    fs.Stands (pathOf (trail.names ++ [name])) node := by
  have hname := (ht.wellFormed hfs).isName (Entries.mem_of_find? hfind)
  have hopen : closed (pathOf (trail.names ++ [name])) = false := by
    simpa [closed] using getLast?_pathOf trail.names hname
  have hlook := resolve_pathOf hfs ht [name] (by simpa using hname)
  simp only [hopen, Bool.or_false] at hlook
  rcases hlook with hlong | hlook
  · exact .inl fun follow => by rw [node_eq, hlong, Except.bind]
  · exact stands_of_resolve hname hfind hlook

/-- **The plain form of a path names the same node**, and no link. -/
theorem stands_canonicalize (hfs : fs.WellFormed) {p q : Path} (hp : fs.canonicalize p = .ok q) :
    ∃ node, fs.node true p = .ok node ∧ node.kind ≠ .link ∧ fs.Stands q node := by
  obtain ⟨place, n, hres, hnode, rfl⟩ := canonicalize_eq_ok_iff.mp hp
  have hvalid := resolve_valid hres
  refine ⟨n, node_of_resolve hres hnode, ?_⟩
  cases place with
  | vacant trail name => cases hnode
  | directory trail =>
      obtain rfl := Option.some.inj hnode
      exact ⟨by simp [Node.kind], stands_pathOf_directory hfs hvalid⟩
  | other trail name node =>
      obtain rfl := Option.some.inj hnode
      obtain ⟨-, start, -, hlegs⟩ := resolve_ok hres
      rw [Bool.true_or] at hlegs
      exact ⟨legs_true_kind hlegs, stands_pathOf_entry hfs hvalid.1 hvalid.2.1⟩

/-- A link that leads nowhere is one. -/
lemma isLink_of_stands {p : Path} {target : Bytes} {e : IoError}
    (hp : fs.Stands p (.link target)) (he : fs.node true p = .error e)
    (hgone : e.isNotFound = true) : fs.isLink p = true := by
  rcases hp with hlong | ⟨hnode, -⟩
  · obtain rfl : e = .nameTooLong := Except.error.inj (he.symm.trans (hlong true))
    simp [IoError.isNotFound] at hgone
  · rw [isLink, hnode]

/-! ### Questions about paths -/

lemma isDirectory_iff {p : Path} :
    fs.isDirectory p = true ↔ ∃ es, fs.node true p = .ok (.directory es) := by
  rw [isDirectory]
  cases fs.node true p with
  | error e => simp
  | ok n => cases n <;> simp

lemma isFile_iff {p : Path} :
    fs.isFile p = true ↔ ∃ content modified, fs.node true p = .ok (.file content modified) := by
  rw [isFile]
  cases fs.node true p with
  | error e => simp
  | ok n => cases n <;> simp

lemma isLink_iff {p : Path} :
    fs.isLink p = true ↔ ∃ target, fs.node false p = .ok (.link target) := by
  rw [isLink]
  cases fs.node false p with
  | error e => simp
  | ok n => cases n <;> simp

lemma pathExists_iff {p : Path} : fs.pathExists p = true ↔ ∃ n, fs.node true p = .ok n := by
  rw [pathExists]
  cases fs.node true p <;> simp [Except.isOk, Except.toBool]

lemma list_of_directory {p : Path} {es : Entries} (hp : fs.node true p = .ok (.directory es)) :
    fs.list p = .ok (es.map fun e => (e.1, e.2.kind)) := by
  rw [list, hp]
  rfl

/-- What is listed is a directory. -/
lemma list_ok {p : Path} {items : List (Bytes × NodeKind)} (hp : fs.list p = .ok items) :
    ∃ es, fs.node true p = .ok (.directory es) ∧ items = es.map fun e => (e.1, e.2.kind) := by
  rw [list] at hp
  cases hnode : fs.node true p with
  | error e => simp [hnode, bind, Except.bind] at hp
  | ok node =>
      cases node with
      | directory es =>
          simp only [hnode, bind, Except.bind, pure, Except.pure] at hp
          exact ⟨es, rfl, (Except.ok.inj hp).symm⟩
      | _ => simp [hnode, bind, Except.bind, throw, throwThe, MonadExceptOf.throw] at hp

lemma list_of_error {p : Path} {e : IoError} (hp : fs.node true p = .error e) :
    fs.list p = .error e := by
  rw [list, hp]
  rfl

end FileSystem

end TreeDigest
