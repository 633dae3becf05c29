import Mathlib
import TreeDigest.Proofs.History.Database
import TreeDigest.Proofs.Path.Components
import TreeDigest.Proofs.Settings.Separation
import TreeDigest.Proofs.Text.Hex

/-!
The directories of identities.

An accepted identity is a single name. Joined to a directory, however that is spelled, it is one
more component at the end of the path, so it leads neither out of the directory nor back to it, and
two identities lead to places of which neither lies in the other.

* `Identity.validate_ofDigest_iff` and `Identity.ofDigest_inj` are about the identities of work of a
  kind on an input: the digits at the end have a fixed number, so that whatever stands before them
  can be told apart.
* `Workspaces.directories_apart` puts both together.
-/

namespace TreeDigest

open TreeDigest.Path

/-! ### Accepted identities -/

namespace Identity

variable {kind kind' : String} {digest digest' : Digest}

/-- **An identity is accepted** if it is a text of characters that may stand in a single name, and
neither empty nor one dot nor two. -/
lemma validate_eq_ok_iff {identity : String} : validate identity = .ok () ↔
    identity ≠ "" ∧ identity ≠ "." ∧ identity ≠ ".."
      ∧ ∀ c ∈ identity.toList, c ≠ '/' ∧ c ≠ '\\' ∧ c ≠ '\x00' := by
  have hrefused : validate identity = .ok () ↔ isRefused identity = false := by
    rw [validate]
    cases isRefused identity <;> simp
  rw [hrefused, isRefused]
  simp [and_assoc]

lemma toList_ofDigest (kind : String) (digest : Digest) :
    (ofDigest kind digest).toList = (kind.toList ++ ['-']) ++ digest.hex.toList := by
  rw [ofDigest, String.toList_append, String.toList_append]
  rfl

/-- **The identity of work on an input is accepted** just where its kind could stand in a name. -/
lemma validate_ofDigest_iff : validate (ofDigest kind digest) = .ok () ↔
    ∀ c ∈ kind.toList, c ≠ '/' ∧ c ≠ '\\' ∧ c ≠ '\x00' := by
  have hlong : ∀ s : String, s.toList.length < 64 → ofDigest kind digest ≠ s := by
    rintro s hs rfl
    rw [toList_ofDigest, List.length_append, digest.length_hex] at hs
    omega
  have hdigits : ∀ c ∈ digest.hex.toList, c ≠ '/' ∧ c ≠ '\\' ∧ c ≠ '\x00' := by
    intro c hc
    rw [Digest.toList_hex] at hc
    have hdigit := Text.Hex.isSome_value?_of_mem_chars hc
    refine ⟨?_, ?_, ?_⟩ <;> rintro rfl <;> exact absurd hdigit (by decide)
  rw [validate_eq_ok_iff]
  constructor
  · rintro ⟨-, -, -, hchars⟩ c hc
    refine hchars c ?_
    rw [toList_ofDigest]
    simp [hc]
  · intro hkind
    refine ⟨hlong "" (by decide), hlong "." (by decide), hlong ".." (by decide), fun c hc => ?_⟩
    rw [toList_ofDigest, List.mem_append, List.mem_append, List.mem_singleton] at hc
    rcases hc with (hc | rfl) | hc
    · exact hkind c hc
    · decide
    · exact hdigits c hc

/-- **Kind and digest can be read off an identity**, whatever the kind looks like: the digits are
cut off at the end, where there are always as many. -/
lemma ofDigest_inj (hsame : ofDigest kind digest = ofDigest kind' digest') :
    kind = kind' ∧ digest = digest' := by
  have hlists := congrArg String.toList hsame
  rw [toList_ofDigest, toList_ofDigest] at hlists
  obtain ⟨hkind, hhex⟩ :=
    List.append_inj' hlists (digest.length_hex.trans digest'.length_hex.symm)
  exact ⟨String.toList_inj.mp (List.append_cancel_right hkind),
    Digest.hex_injective (String.toList_inj.mp hhex)⟩

end Identity

/-! ### Directories of identities -/

namespace Workspaces

variable {w : Workspaces} {identity i j : String} {p q : Path}

/-- **The directory of an accepted identity** has one component more than the store. -/
lemma components_directoryOf (hname : Identity.validate identity = .ok ()) :
    ∃ p, w.directoryOf identity = .ok p
      ∧ p.components = w.directory.components ++ [.name (Text.utf8 identity)] := by
  refine ⟨w.directory.child identity, ?_, components_child _ (Identity.isName hname)⟩
  simp only [directoryOf, hname, bind, Except.bind, pure, Except.pure]

/-- A directory is told for accepted identities only. -/
lemma accepted_of_directoryOf (hp : w.directoryOf identity = .ok p) :
    Identity.validate identity = .ok () := by
  cases hname : Identity.validate identity with
  | ok u => rfl
  | error e => simp [directoryOf, hname, bind, Except.bind] at hp

/-- Where two paths have one component more than a third one, neither lies in the other unless they
are the same. -/
lemma not_liesIn_of_concat {base : List Component} {a b : Component} (hne : a ≠ b)
    (hp : p.components = base ++ [a]) (hq : q.components = base ++ [b]) : ¬ p.LiesIn q := by
  rw [LiesIn, hp, hq]
  intro hprefix
  have hlists := hprefix.eq_of_length (by simp)
  exact hne (by simpa using hlists.symm)

/-- **Identities map one to one into the store**: for any spelling of its directory,

* an accepted identity has a directory, which is the store with one name more at the end, the
  identity itself: it lies in the store and the store does not lie in it;
* of the directories of two identities neither lies in the other, and the two have different keys
  in the history;
* the identity of work of a kind on an input is accepted just where the kind could stand in a name,
  and determines the kind and the digest. -/
theorem directories_apart (w : Workspaces) :
    (∀ identity, Identity.validate identity = .ok () → ∃ p, w.directoryOf identity = .ok p
        ∧ p.components = w.directory.components ++ [.name (Text.utf8 identity)]
        ∧ p.LiesIn w.directory ∧ ¬ w.directory.LiesIn p)
      ∧ (∀ i j p q, i ≠ j → w.directoryOf i = .ok p → w.directoryOf j = .ok q →
        p.Apart q ∧ Database.key i ≠ Database.key j)
      ∧ (∀ kind digest, Identity.validate (Identity.ofDigest kind digest) = .ok () ↔
        ∀ c ∈ kind.toList, c ≠ '/' ∧ c ≠ '\\' ∧ c ≠ '\x00')
      ∧ ∀ kind kind' digest digest',
        Identity.ofDigest kind digest = Identity.ofDigest kind' digest' →
        kind = kind' ∧ digest = digest' := by
  refine ⟨fun identity hname => ?_, fun i j p q hne hp hq => ⟨?_, ?_⟩,
    fun _ _ => Identity.validate_ofDigest_iff, fun _ _ _ _ => Identity.ofDigest_inj⟩
  · obtain ⟨p, hp, hcomponents⟩ := components_directoryOf (w := w) hname
    refine ⟨p, hp, hcomponents, ?_, fun hback => ?_⟩
    · rw [LiesIn, hcomponents]
      exact List.prefix_append _ _
    · have hlength := hback.length_le
      rw [hcomponents, List.length_append, List.length_singleton] at hlength
      omega
  · obtain ⟨p', hp', hcomponents⟩ := components_directoryOf (w := w) (accepted_of_directoryOf hp)
    obtain ⟨q', hq', hcomponents'⟩ := components_directoryOf (w := w) (accepted_of_directoryOf hq)
    obtain rfl := Except.ok.inj (hp.symm.trans hp')
    obtain rfl := Except.ok.inj (hq.symm.trans hq')
    have hother : Component.name (Text.utf8 i) ≠ .name (Text.utf8 j) :=
      fun hnames => hne (Text.utf8_injective (Component.name.inj hnames))
    exact ⟨not_liesIn_of_concat hother hcomponents hcomponents',
      not_liesIn_of_concat hother.symm hcomponents' hcomponents⟩
  · exact fun hkey => hne (Database.key_injective hkey)

end Workspaces

end TreeDigest
